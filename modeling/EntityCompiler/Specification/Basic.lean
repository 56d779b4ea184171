import EntityCompiler.Entity.Basic

/-!
# Specifications

The description of an entity as its author gives it, once its shape has been checked.  Column types
and literals are still values: whether they are right is decided when the entity is built.
-/

namespace EntityCompiler

/-- The description of a column.  A default or example may be given as null, which is not the same
as not giving one. -/
structure ColumnSpecification where
  type : Value
  optional : Bool := false
  nullable : Bool := false
  default : Option Value := none
  description : Option String := none
  visibility : Visibility := .isPublic
  immutable : Bool := false
  stored : Bool := true
  /-- A value shown as an example. -/
  sample : Option Value := none
  db : StorageFlags := {}

namespace ColumnSpecification

def acceptsNull (c : ColumnSpecification) : Bool := c.nullable || c.optional

end ColumnSpecification

/-- The description of an entity. -/
structure Specification where
  name : String
  table : Bool := false
  columns : List (String × ColumnSpecification)
  doc : Bool := false
  test : Option TestMode := none
  active : Bool := true
  openapi : Option ApiSettings := none
  docs : Option DocsSettings := none

end EntityCompiler
