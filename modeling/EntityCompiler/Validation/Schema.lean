import EntityCompiler.Entity.Basic
import EntityCompiler.Entity.Equality
import EntityCompiler.Error

/-!
# Validation schemas

The schema that records of an entity have to satisfy, and the schemas derived from it: what the API
shows, what a client sends to create a record and what it sends to update one.
-/

namespace EntityCompiler.Validation

/-- What a value is checked against. -/
inductive Node where
  | scalar (p : Primitive)
  /-- A sequence whose items all satisfy `element`. -/
  | sequence (element : Node)
deriving DecidableEq, Repr

/-- The node for a column type. -/
def Node.of : ColumnType → Node
  | .primitive p => .scalar p
  | .arrayOf element => .sequence (Node.of element)

/-- A field of a record. -/
structure Field where
  name : String
  node : Node
  required : Bool
  /-- Whether the field may be null when it is present. -/
  nullable : Bool
  /-- The value of the field when it is absent. -/
  default : Option Json := none
  description : Option String := none

/-- The fields of a record.  A strict schema refuses all other keys. -/
structure Schema where
  name : String
  fields : List Field
  strict : Bool := true

namespace Field

/-- The field for a column. -/
def of (name : String) (c : Column) : Field where
  name := name
  node := Node.of c.type
  required := c.required
  nullable := c.acceptsNull
  default := c.default
  description := c.description

/-- The field for a column that may be left unchanged. -/
def ofPatch (name : String) (c : Column) : Field where
  name := name
  node := Node.of c.type
  required := false
  nullable := c.acceptsNull
  description := c.description

/-- Whether two fields are the same, literals being compared by value. -/
def alike (f g : Field) : Bool :=
  f.name = g.name && f.node = g.node && f.required = g.required && f.nullable = g.nullable &&
    Json.alike? f.default g.default && f.description = g.description

/-- Whether fields at the same place are the same, one by one. -/
def listAlike : List Field → List Field → Bool
  | [], [] => true
  | f :: fs, g :: gs => f.alike g && listAlike fs gs
  | _, _ => false

end Field

namespace Schema

def fieldNames (s : Schema) : List String :=
  s.fields.map (·.name)

def requiredFields (s : Schema) : List String :=
  (s.fields.filter (·.required)).map (·.name)

def optionalFields (s : Schema) : List String :=
  (s.fields.filter fun f ↦ !f.required).map (·.name)

/-- The field with a given name. -/
def get (s : Schema) (name : String) : Except Failure Field :=
  match s.fields.find? fun f ↦ f.name = name with
  | some f => .ok f
  | none => .error (.unknownName (.text name))

/-- The schema without the refusal of other keys. -/
def lenient (s : Schema) : Schema :=
  { s with strict := false }

/-- The name of the compiled form of the schema. -/
def modelName (s : Schema) : String :=
  s.name ++ "Record"

/-- Whether two schemas are the same. -/
def alike (s t : Schema) : Bool :=
  s.name = t.name && Field.listAlike s.fields t.fields && s.strict = t.strict

/-- The schema with a field for each column. -/
def ofColumns (name : String) (columns : List (String × Column)) : Schema where
  name := name
  fields := columns.map fun (column, c) ↦ Field.of column c

/-- The schema of all columns. -/
def full (e : Entity) : Schema :=
  ofColumns e.name e.columns

/-- The schema of what the API shows. -/
def shown (e : Entity) : Schema :=
  ofColumns (e.name ++ "Public") e.publicColumns

/-- Whether a column is never sent by clients. -/
def isServerManaged (name : String) (c : Column) : Bool :=
  name = "id" || c.immutable || c.db.defaultNow

/-- The columns that clients send. -/
def writableColumns (e : Entity) : List (String × Column) :=
  e.columns.filter fun (name, c) ↦ !isServerManaged name c

/-- The schema of what a client sends to create a record. -/
def create (e : Entity) : Schema :=
  ofColumns (e.name ++ "InputCreate") (writableColumns e)

/-- The schema of what a client sends to update a record: nothing is required and nothing is filled
in. -/
def update (e : Entity) : Schema where
  name := e.name ++ "InputUpdate"
  fields := (writableColumns e).map fun (name, c) ↦ Field.ofPatch name c

end Schema

end EntityCompiler.Validation
