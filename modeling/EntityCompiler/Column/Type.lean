/-!
# Column types

A column type is a primitive or an array of one column type.
-/

namespace EntityCompiler

/-- The primitive column types. -/
inductive Primitive where
  | string
  /-- An integer or a floating-point number. -/
  | number
  | integer
  | boolean
  /-- An ISO-8601 instant. -/
  | date
  /-- An arbitrary JSON value. -/
  | json
deriving DecidableEq, Repr

namespace Primitive

def all : List Primitive :=
  [.string, .number, .integer, .boolean, .date, .json]

def name : Primitive → String
  | .string => "string"
  | .number => "number"
  | .integer => "integer"
  | .boolean => "boolean"
  | .date => "date"
  | .json => "json"

/-- The primitive with a given name. -/
def ofName? (name : String) : Option Primitive :=
  all.find? fun p ↦ p.name = name

theorem mem_all (p : Primitive) : p ∈ all := by
  cases p <;> decide

theorem ofName?_name (p : Primitive) : ofName? p.name = some p := by
  cases p <;> decide

theorem name_injective : Function.Injective name := by
  intro p q h
  apply Option.some.inj
  rw [← ofName?_name, h, ofName?_name]

end Primitive

/-- The type of a column. -/
inductive ColumnType where
  | primitive (p : Primitive)
  | arrayOf (element : ColumnType)
deriving DecidableEq, Repr

namespace ColumnType

def isArray : ColumnType → Bool
  | .primitive _ => false
  | .arrayOf _ => true

/-- The innermost primitive. -/
def base : ColumnType → Primitive
  | .primitive p => p
  | .arrayOf element => element.base

/-- The number of arrays around the innermost primitive. -/
def depth : ColumnType → Nat
  | .primitive _ => 0
  | .arrayOf element => element.depth + 1

/-- The form of a type shown in messages, such as `arrayOf(json)`. -/
def describe : ColumnType → String
  | .primitive p => p.name
  | .arrayOf element => "arrayOf(" ++ element.describe ++ ")"

end ColumnType

end EntityCompiler
