import EntityCompiler.Validation.Schema

/-!
# Hashes

What the hashes of definitions and schemas are taken of, and sets whose items are found by their hash.
Literals and examples do not count for a hash, and the columns of an entity count through its
fingerprint only.
-/

namespace EntityCompiler

/-- The items of a set, in the order in which they are added.  An item is left out when one that has
the same hash and is equal to it is there. -/
def distinctBy {α κ : Type} [DecidableEq κ] (hash : α → κ) (alike : α → α → Bool) : List α → List α
  | [] => []
  | x :: rest =>
    x :: (distinctBy hash alike rest).filter fun y ↦ !(decide (hash x = hash y) && alike x y)

/-! ## Definitions -/

/-- What the hash of a column is taken of. -/
structure Column.HashKey where
  type : ColumnType
  optional : Bool
  nullable : Bool
  description : Option String
  visibility : Visibility
  immutable : Bool
  stored : Bool
  db : StorageFlags
deriving DecidableEq

def Column.hashKey (c : Column) : Column.HashKey :=
  ⟨c.type, c.optional, c.nullable, c.description, c.visibility, c.immutable, c.stored, c.db⟩

/-- What the hash of metadata is taken of.  A documentation has the hash of its description. -/
structure Metadata.HashKey where
  doc : Bool
  test : Option TestMode
  active : Bool
  openapi : ApiSettings
  docs : Option String
deriving DecidableEq

def Metadata.hashKey (m : Metadata) : Metadata.HashKey :=
  ⟨m.doc, m.test, m.active, m.openapi, m.docs.description⟩

/-- What the hash of an entity is taken of: its name and its fingerprint. -/
def Entity.hashKey (e : Entity) : String × String :=
  (e.name, e.fingerprint)

/-! ## Schemas -/

namespace Validation

/-- What the hash of a field is taken of. -/
structure Field.HashKey where
  name : String
  node : Node
  required : Bool
  nullable : Bool
  description : Option String
deriving DecidableEq

def Field.hashKey (f : Field) : Field.HashKey :=
  ⟨f.name, f.node, f.required, f.nullable, f.description⟩

/-- What the hash of a schema is taken of: its name, the hashes of its fields and whether it is
strict. -/
def Schema.hashKey (s : Schema) : String × List Field.HashKey × Bool :=
  (s.name, s.fields.map Field.hashKey, s.strict)

end Validation

end EntityCompiler
