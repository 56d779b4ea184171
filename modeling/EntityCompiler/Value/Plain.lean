import EntityCompiler.Column.Parse

/-!
# Plain JSON forms

The JSON value that stands for a value in a fingerprint.  Numbers that are not finite become null,
moments and bytes become texts, and so do the keys of dictionaries, where a number that is not finite has
the text of null.  Not every value has such a form in the end; what keeps one from having it is found when
it is written out.
-/

namespace EntityCompiler.Value

mutual

/-- The text that a key becomes. -/
def keyText : Value → String
  | .bool b => if b then "true" else "false"
  | .float (.finite x) => x.text
  | .float _ => null.display
  | .text s => s
  | .bytes data => (Text.ofUtf8? data).getD ""
  | .moment t => t.zuluText
  | .tuple items => ",".intercalate (keyTexts items)
  | .columnType (.primitive p) => p.name
  | v => v.display

def keyTexts : List Value → List String
  | [] => []
  | item :: rest => keyText item :: keyTexts rest

end

/-- The JSON value that stands for a parsed column type: a name, or an object with the element type. -/
def plainType : ColumnType → Json
  | .primitive p => .text p.name
  | .arrayOf element => .object [("element", plainType element)]

mutual

/-- The JSON value that stands for a value.  Of several entries whose keys become the same text, the
last one counts. -/
def plain : Value → Json
  | .null => .null
  | .bool b => .bool b
  | .int n => .int n
  | .float (.finite x) => .float x
  | .float _ => .null
  | .text s => .text s
  | .bytes data => .text ((Text.ofUtf8? data).getD "")
  | .moment t => .text t.zuluText
  | .list items => .array (plainItems items)
  | .tuple items => .array (plainItems items)
  | .collection _ items => .array (plainItems items)
  | .dict entries => .object (plainEntries [] entries)
  | .columnType t => plainType t

def plainItems : List Value → List Json
  | [] => []
  | item :: rest => plain item :: plainItems rest

/-- The members that the entries add to those already there. -/
def plainEntries (members : List (String × Json)) : List (Value × Value) → List (String × Json)
  | [] => members
  | (key, value) :: rest => plainEntries (Json.putMember (keyText key) (plain value) members) rest

end

end EntityCompiler.Value
