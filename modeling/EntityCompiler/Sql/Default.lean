import EntityCompiler.Calendar.Instant
import EntityCompiler.Json.Text
import EntityCompiler.Sql.Type

/-!
# SQL default literals

The literal that a default becomes.  Arrays are array literals where the dialect has arrays and JSON
texts elsewhere.
-/

namespace EntityCompiler.Sql

/-- The literal of a JSON text with its cast. -/
def castJson (p : Profile) (value : Json) : String :=
  quoteText value.compact ++ p.jsonCast

/-- The literal of a JSON value. -/
def renderJson (p : Profile) (value : Json) : String :=
  if p.jsonParentheses then "(" ++ castJson p value ++ ")" else castJson p value

/-- A text without its last characters. -/
def withoutLast (count : Nat) (text : String) : String :=
  .ofList (text.toList.take (text.toList.length - count))

/-- The date and time of a moment with microseconds, the year without leading zeros. -/
def microsecondText (t : Moment) : String :=
  t.date.shortText ++ " " ++ t.clock.text ++ "." ++ Numeral.padded 6 t.clock.microsecond.val

/-- The date and time of a moment with milliseconds: the last three of its digits are cut off. -/
def millisecondText (t : Moment) : String :=
  withoutLast 3 (microsecondText t)

/-- The literal of a date.  In the one dialect that keeps no offsets, it is moved to universal
time. -/
def renderDate (p : Profile) (text : String) : Except Failure String :=
  match p.dialect with
  | .mysql =>
    match Instant.read text with
    | .error refusal => .error (.instant refusal)
    | .ok t =>
      match t.toUtc? with
      | some utc => .ok (quoteText (millisecondText utc))
      | none => .error .dateOutOfRange
  | _ => .ok (quoteText text)

/-- The literal of a value of a primitive type. -/
def renderScalar (p : Profile) : Primitive → Json → Except Failure String
  | .json, value => .ok (renderJson p value)
  | .date, .text text => renderDate p text
  | _, .text text => .ok (quoteText text)
  | _, .int n => .ok (Numeral.ofInt n)
  | _, .float x => .ok x.text
  | _, .bool b => .ok (if b then p.trueLiteral else p.falseLiteral)
  | _, value => .ok (renderJson p value)

/-- An element of an array literal. -/
def renderElement (p : Profile) : ColumnType → Json → Except Failure String
  | _, .null => .ok "NULL"
  | .arrayOf element, .array items => do
    let parts ← items.mapM (renderElement p element)
    return "ARRAY[" ++ ", ".intercalate parts ++ "]"
  | .primitive .json, value => .ok (castJson p value)
  | .primitive q, value => renderScalar p q value
  | .arrayOf _, value => .ok (castJson p value)

/-- The literal of a default. -/
def renderDefault (p : Profile) (subject : Subject) : ColumnType → Json → Except Failure String
  | _, .null => .ok "NULL"
  | .arrayOf element, value =>
    if p.nativeArrays then do
      let type ← (renderType p true subject (.arrayOf element)).mapError .entity
      let body ← renderElement p (.arrayOf element) value
      return body ++ "::" ++ type
    else .ok (renderJson p value)
  | .primitive q, value => renderScalar p q value

/-! ## Values that have not been checked -/

/-- What is kept of a value, whether its column type admits it or not.  Moments of a date become
texts. -/
def settle? : ColumnType → Value → Option Json
  | .primitive .date, .moment t => some (.text t.isoText)
  | .primitive _, v => v.toJson?
  | .arrayOf element, v =>
    match v.items? with
    | some items => (items.mapM (settle? element)).map .array
    | none => v.toJson?

/-- The literal of a value that has not been checked.  A moment inside an array has no JSON text. -/
def renderValue (p : Profile) (subject : Subject) (type : ColumnType) (v : Value) :
    Except Failure String :=
  let kept := if type.isArray && !p.nativeArrays then v.toJson? else settle? type v
  match kept with
  | some value => renderDefault p subject type value
  | none => .error .notJson

end EntityCompiler.Sql
