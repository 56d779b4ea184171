import EntityCompiler.Sql.Dialect

/-!
# SQL column types

The type that a dialect gives to a column.  A dialect without arrays keeps them as JSON, unless that
is switched off.
-/

namespace EntityCompiler.Sql

/-- The column that an error is about. -/
structure Subject where
  entity : Option String
  column : String

/-- The error of a column type that a dialect cannot represent. -/
def Subject.unsupported (subject : Subject) (p : Profile) (type : ColumnType) : EntityError :=
  .unsupportedType subject.column type.describe (p.name ++ " DDL") subject.entity

/-- The type that an array column has in a dialect without arrays. -/
def jsonArrayType? (p : Profile) (fallback : Bool) : Option String :=
  if fallback then p.jsonArrayType.filter (· ≠ "") else none

/-- The type of a column. -/
def renderType (p : Profile) (fallback : Bool) (subject : Subject) :
    ColumnType → Except EntityError String
  | .primitive q =>
    match p.typeName q with
    | some name => .ok name
    | none => .error (subject.unsupported p (.primitive q))
  | .arrayOf element =>
    if p.nativeArrays then (renderType p fallback subject element).map (· ++ "[]")
    else
      match jsonArrayType? p fallback with
      | some name => .ok name
      | none => .error (subject.unsupported p (.arrayOf element))

end EntityCompiler.Sql
