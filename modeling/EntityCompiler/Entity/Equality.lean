import EntityCompiler.Entity.Basic

/-!
# Equality of entities

When two entities are the same.  Numbers in literals are compared by value and the order of members
does not count, neither in literals nor among the columns themselves.
-/

namespace EntityCompiler

/-- Whether two optional literals are both absent or equal. -/
def Json.alike? : Option Json → Option Json → Bool
  | none, none => true
  | some a, some b => a.alike b
  | _, _ => false

namespace Column

/-- Whether two columns are the same. -/
def alike (c d : Column) : Bool :=
  c.type = d.type && c.optional = d.optional && c.nullable = d.nullable &&
    Json.alike? c.default d.default && c.description = d.description &&
    c.visibility = d.visibility && c.immutable = d.immutable && c.stored = d.stored &&
    Json.alike? c.sample d.sample && c.db = d.db

/-- Whether two columns by name are the same whatever their order. -/
def mapAlike (cs ds : List (String × Column)) : Bool :=
  cs.length = ds.length && cs.all fun (name, c) ↦ ds.any fun (other, d) ↦ name = other && c.alike d

end Column

namespace Metadata

def alike (m n : Metadata) : Bool :=
  m.doc = n.doc && m.test = n.test && m.active = n.active && m.openapi = n.openapi &&
    m.docs.description = n.docs.description &&
    (Value.ofFields m.docs.examples).alike (Value.ofFields n.docs.examples)

end Metadata

/-- Whether two entities are the same. -/
def Entity.alike (e f : Entity) : Bool :=
  e.name = f.name && e.table = f.table && Column.mapAlike e.columns f.columns &&
    e.metadata.alike f.metadata && e.fingerprint = f.fingerprint

end EntityCompiler
