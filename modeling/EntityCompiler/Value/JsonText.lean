import EntityCompiler.Json.Text
import EntityCompiler.Value.Display

/-!
# JSON texts of values

The JSON text of a dynamic value on one line, with a blank after every comma and colon.  Moments are
written as texts, and so are keys that are numbers, truth values or null; what JSON does not have is
written as it is shown in messages.
-/

namespace EntityCompiler.Value

/-- A number in a JSON text, or the name of a special value. -/
def jsonNumber : Binary64 → String
  | .finite x => x.text
  | .infinity negative => if negative then "-Infinity" else "Infinity"
  | .nan => "NaN"

/-- A text in double quotes, in printable ASCII. -/
def jsonQuoted (s : String) : String :=
  String.ofList (Json.quoteText .ascii s)

/-- The numeral of an integer that has not too many digits. -/
def jsonInteger? (n : Int) : Option String :=
  if Numeral.isWritable n then some (Numeral.ofInt n) else none

/-- The form in which a value is shown in messages, as a text. -/
def jsonShown? (v : Value) : Option String :=
  if v.isShowable then some (jsonQuoted v.display) else none

/-- The text that a key becomes.  Lists, dictionaries, bytes and moments are no keys. -/
def jsonKey? : Value → Option String
  | .null => some "null"
  | .bool b => some (if b then "true" else "false")
  | .int n => jsonInteger? n
  | .float x => some (jsonNumber x)
  | v => v.text?

mutual

/-- The JSON text of a value, if all of its keys and integers have one. -/
def jsonText? : Value → Option String
  | .null => some "null"
  | .bool b => some (if b then "true" else "false")
  | .int n => jsonInteger? n
  | .float x => some (jsonNumber x)
  | .text s => some (jsonQuoted s)
  | .bytes data => jsonShown? (.bytes data)
  | .moment t => some (jsonQuoted t.spacedText)
  | .list items => (jsonItems? items).map fun texts ↦ "[" ++ ", ".intercalate texts ++ "]"
  | .tuple items => (jsonItems? items).map fun texts ↦ "[" ++ ", ".intercalate texts ++ "]"
  | .collection kind items => jsonShown? (.collection kind items)
  | .dict entries =>
    (jsonEntries? entries).map fun texts ↦ "\x7b" ++ ", ".intercalate texts ++ "\x7d"
  | .columnType (.primitive p) => some (jsonQuoted p.name)
  | .columnType t => some (jsonQuoted (typeText t))

def jsonItems? : List Value → Option (List String)
  | [] => some []
  | item :: rest => do
    let text ← jsonText? item
    let texts ← jsonItems? rest
    return text :: texts

def jsonEntries? : List (Value × Value) → Option (List String)
  | [] => some []
  | (key, value) :: rest => do
    let key ← jsonKey? key
    let text ← jsonText? value
    let texts ← jsonEntries? rest
    return (jsonQuoted key ++ ": " ++ text) :: texts

end

end EntityCompiler.Value
