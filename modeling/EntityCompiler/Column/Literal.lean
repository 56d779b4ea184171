import EntityCompiler.Calendar.Instant
import EntityCompiler.Value.Basic

/-!
# Literals

The values that a column type admits as a default or an example, and the JSON value that is kept of
each.  A moment is kept as its ISO-8601 text, a tuple as an array.
-/

namespace EntityCompiler.Literal

/-- Why a column type does not admit a value. -/
inductive Mismatch where
  | notAnArray (found : String)
  /-- An element of an array is not admitted. -/
  | element (index : Nat) (reason : Mismatch)
  | notAString (found : String)
  | notANumber (found : String)
  | notFinite
  | notAnInteger (found : String)
  | notABoolean (found : String)
  | notADate
  | notJson
deriving DecidableEq, Repr

def Mismatch.message : Mismatch → String
  | .notAnArray found => "expected an array literal, got " ++ found
  | .element index reason => "element " ++ Numeral.ofNat index ++ ": " ++ reason.message
  | .notAString found => "expected a string, got " ++ found
  | .notANumber found => "expected a number, got " ++ found
  | .notFinite => "expected a finite number"
  | .notAnInteger found => "expected an integer, got " ++ found
  | .notABoolean found => "expected a boolean, got " ++ found
  | .notADate => "expected an ISO-8601 date string"
  | .notJson => "expected a JSON-serializable value"

/-- What is kept of a value of a primitive type. -/
def readScalar : Primitive → Value → Except Mismatch Json
  | .string, v =>
    match v.text? with
    | some s => .ok (.text s)
    | none => .error (.notAString v.typeName)
  | .number, .int n => .ok (.int n)
  | .number, .float (.finite x) => .ok (.float x)
  | .number, .float _ => .error .notFinite
  | .number, v => .error (.notANumber v.typeName)
  | .integer, .int n => .ok (.int n)
  | .integer, v => .error (.notAnInteger v.typeName)
  | .boolean, .bool b => .ok (.bool b)
  | .boolean, v => .error (.notABoolean v.typeName)
  | .date, .moment t => .ok (.text t.isoText)
  | .date, .text s =>
    match Instant.read s with
    | .ok _ => .ok (.text s)
    | .error _ => .error .notADate
  | .date, _ => .error .notADate
  | .json, v =>
    match v.toJson? with
    | some value => .ok value
    | none => .error .notJson

/-- What is kept of the elements of an array, from the given index on. -/
def readElements (read : Value → Except Mismatch Json) (index : Nat) :
    List Value → Except Mismatch (List Json)
  | [] => .ok []
  | v :: rest =>
    match read v with
    | .error reason => .error (.element index reason)
    | .ok value => (readElements read (index + 1) rest).map (value :: ·)

/-- What is kept of a value of a column type. -/
def read : ColumnType → Value → Except Mismatch Json
  | .primitive p, v => readScalar p v
  | .arrayOf element, v =>
    match v.items? with
    | some items => (readElements (read element) 0 items).map .array
    | none => .error (.notAnArray v.typeName)

/-- Why a column type does not admit a value, if it does not. -/
def mismatch? (type : ColumnType) (v : Value) : Option Mismatch :=
  match read type v with
  | .ok _ => none
  | .error reason => some reason

end EntityCompiler.Literal
