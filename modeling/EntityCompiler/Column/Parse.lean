import EntityCompiler.Value.Display

/-!
# Reading column types

The column type that a value denotes: a name of a primitive, or a dictionary whose only key says
that its value is the element type of an array.
-/

namespace EntityCompiler.ColumnType

/-- Why a value denotes no column type, or why there is no column type around or inside another. -/
inductive Fault where
  | unknownPrimitive (name : String)
  /-- A dictionary that is not an array type. -/
  | malformedArray (raw : Value)
  | unrecognized (raw : Value)
  /-- A type that has no elements. -/
  | notAnArray (type : ColumnType)
  /-- A value that cannot be the element type of an array. -/
  | notAType (found : Value)

def Fault.message : Fault → String
  | .unknownPrimitive name => "Unknown primitive type: " ++ Text.quoted name
  | .malformedArray raw =>
    "Array type must have exactly one 'arrayOf' key: " ++ raw.display
  | .unrecognized raw => "Unrecognized column type: " ++ raw.display
  | .notAnArray type => type.describe ++ " is not an array type"
  | .notAType found => "ArrayOf element must be a column type, got " ++ found.display

/-- The keys that introduce the element type of an array. -/
def arrayKeys : List String :=
  ["arrayOf", "array_of"]

/-- The column type that a value denotes. -/
def parse : Value → Except Fault ColumnType
  | .columnType t => .ok t
  | .text name =>
    match Primitive.ofName? name with
    | some p => .ok (.primitive p)
    | none => .error (.unknownPrimitive name)
  | .dict [(.text key, element)] =>
    if arrayKeys.contains key then (parse element).map .arrayOf
    else .error (.malformedArray (.dict [(.text key, element)]))
  | .dict entries => .error (.malformedArray (.dict entries))
  | raw => .error (.unrecognized raw)

/-- The element type of an array. -/
def element : ColumnType → Except Fault ColumnType
  | .arrayOf element => .ok element
  | type => .error (.notAnArray type)

/-- The array type around a column type that has been parsed before. -/
def around : Value → Except Fault ColumnType
  | .columnType t => .ok (.arrayOf t)
  | found => .error (.notAType found)

/-- The canonical form of a column type. -/
def toJson : ColumnType → Json
  | .primitive p => .text p.name
  | .arrayOf element => .object [("arrayOf", element.toJson)]

end EntityCompiler.ColumnType
