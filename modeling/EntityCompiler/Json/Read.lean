import EntityCompiler.Json.Basic
import EntityCompiler.Text.Ascii

/-!
# Reading JSON

The JSON value that a text denotes.  Numbers without a fraction and an exponent are integers, all
others floating-point numbers; the members of an object keep their order.
-/

namespace EntityCompiler.Json

/-- A reader takes characters from the front of its input and gives back the rest. -/
abbrev Reader (α : Type) := List Char → Option (α × List Char)

def isBlank (c : Char) : Bool :=
  c = ' ' || c = '\t' || c = '\n' || c = '\r'

def dropBlanks (cs : List Char) : List Char :=
  cs.dropWhile isBlank

/-! ## Texts -/

def hexValue? (c : Char) : Option Nat :=
  if '0' ≤ c ∧ c ≤ '9' then some (c.toNat - 48)
  else if 'a' ≤ c ∧ c ≤ 'f' then some (c.toNat - 87)
  else if 'A' ≤ c ∧ c ≤ 'F' then some (c.toNat - 55)
  else none

/-- Four hexadecimal digits. -/
def readUnit : Reader Nat
  | a :: b :: c :: d :: rest => do
    let digits ← [a, b, c, d].mapM hexValue?
    return (digits.foldl (fun unit digit ↦ 16 * unit + digit) 0, rest)
  | _ => none

/-- A character by the codes of its UTF-16 units, the first of which follows. -/
def readUnits (cs : List Char) : Option (Char × List Char) := do
  let (first, rest) ← readUnit cs
  if 0xD800 ≤ first ∧ first < 0xDC00 then
    match rest with
    | '\\' :: 'u' :: rest =>
      let (second, rest) ← readUnit rest
      return (Char.ofNat (0x10000 + (first - 0xD800) * 0x400 + (second - 0xDC00)), rest)
    | _ => none
  else return (Char.ofNat first, rest)

/-- The character that a backslash introduces. -/
def readEscape : Reader Char
  | 'n' :: rest => some ('\n', rest)
  | 't' :: rest => some ('\t', rest)
  | 'r' :: rest => some ('\r', rest)
  | 'b' :: rest => some (Char.ofNat 8, rest)
  | 'f' :: rest => some (Char.ofNat 12, rest)
  | 'u' :: rest => readUnits rest
  | c :: rest => some (c, rest)
  | [] => none

/-- The rest of a text after its opening quote; `done` holds what has been read, from its end. -/
def readQuoted : Nat → List Char → Reader String
  | 0, _, _ => none
  | fuel + 1, done, cs =>
    match cs with
    | '\x22' :: rest => some (String.ofList done.reverse, rest)
    | '\\' :: rest => do
      let (c, rest) ← readEscape rest
      readQuoted fuel (c :: done) rest
    | c :: rest => readQuoted fuel (c :: done) rest
    | [] => none

/-- A text after its opening quote. -/
def readText (cs : List Char) : Option (String × List Char) :=
  readQuoted (cs.length + 1) [] cs

/-! ## Numbers -/

def isNumeric (c : Char) : Bool :=
  Text.isAsciiDigit c || c = '-' || c = '+' || c = '.' || c = 'e' || c = 'E'

/-- The number that a numeral denotes. -/
def numberOf? (numeral : List Char) : Option Json :=
  if numeral.all fun c ↦ Text.isAsciiDigit c || c = '-' then
    match Numeral.readInt (String.ofList numeral) with
    | .ok n => some (.int n)
    | .error _ => none
  else
    match Binary64.read? (String.ofList numeral) with
    | some (.finite x) => some (.float x)
    | _ => none

def readNumber (cs : List Char) : Option (Json × List Char) :=
  (numberOf? (cs.takeWhile isNumeric)).map fun value ↦ (value, cs.dropWhile isNumeric)

/-! ## Values -/

/-- The rest of a text after the characters of `word`. -/
def dropWord? (word : List Char) (cs : List Char) : Option (List Char) :=
  if word.isPrefixOf cs then some (cs.drop word.length) else none

def readWord (word : String) (value : Json) (cs : List Char) : Option (Json × List Char) :=
  (dropWord? word.toList cs).map fun rest ↦ (value, rest)

mutual

def readValue : Nat → Reader Json
  | 0, _ => none
  | fuel + 1, cs =>
    match dropBlanks cs with
    | '\x7b' :: rest =>
      match dropBlanks rest with
      | '\x7d' :: rest => some (.object [], rest)
      | rest => readMembers fuel [] rest
    | '[' :: rest =>
      match dropBlanks rest with
      | ']' :: rest => some (.array [], rest)
      | rest => readItems fuel [] rest
    | '\x22' :: rest => (readText rest).map fun (s, rest) ↦ (Json.text s, rest)
    | 't' :: rest => readWord "rue" (.bool true) rest
    | 'f' :: rest => readWord "alse" (.bool false) rest
    | 'n' :: rest => readWord "ull" .null rest
    | rest => readNumber rest

/-- The items of an array; `done` holds those before, from their end. -/
def readItems : Nat → List Json → Reader Json
  | 0, _, _ => none
  | fuel + 1, done, cs => do
    let (item, rest) ← readValue fuel cs
    match dropBlanks rest with
    | ',' :: rest => readItems fuel (item :: done) rest
    | ']' :: rest => return (.array (item :: done).reverse, rest)
    | _ => none

/-- The members of an object; `done` holds those before, from their end. -/
def readMembers : Nat → List (String × Json) → Reader Json
  | 0, _, _ => none
  | fuel + 1, done, cs => do
    let (key, rest) ←
      match dropBlanks cs with
      | '\x22' :: rest => readText rest
      | _ => none
    let rest ← dropWord? [':'] (dropBlanks rest)
    let (value, rest) ← readValue fuel rest
    match dropBlanks rest with
    | ',' :: rest => readMembers fuel ((key, value) :: done) rest
    | '\x7d' :: rest => return (.object ((key, value) :: done).reverse, rest)
    | _ => none

end

/-- The value that a text denotes.  No reading takes more steps than twice the characters. -/
def read? (text : String) : Option Json :=
  let cs := text.toList
  match readValue (2 * cs.length + 1) cs with
  | some (value, rest) => if (dropBlanks rest).isEmpty then some value else none
  | none => none

end EntityCompiler.Json
