import EntityCompiler.Json.Basic

/-!
# JSON texts

The compact text of a JSON value.  Two ways of writing characters are told apart: one escapes
everything outside printable ASCII, the other only what JSON requires.
-/

namespace EntityCompiler.Json

/-- How the characters of a text are written. -/
inductive Charset where
  /-- Only printable ASCII, all else by its UTF-16 units. -/
  | ascii
  /-- Every character as it is, except those that JSON forbids. -/
  | unicode
deriving DecidableEq, Repr

/-- A UTF-16 unit by its code. -/
def unitEscape (unit : Nat) : List Char :=
  '\\' :: 'u' :: Numeral.hexDigits 4 unit

/-- A character by the codes of its UTF-16 units. -/
def utf16Escape (c : Char) : List Char :=
  if c.toNat < 0x10000 then unitEscape c.toNat
  else
    let offset := c.toNat - 0x10000
    unitEscape (0xD800 + offset / 0x400) ++ unitEscape (0xDC00 + offset % 0x400)

/-- One character of a quoted text. -/
def escapeChar (charset : Charset) (c : Char) : List Char :=
  if c = '\x22' ∨ c = '\\' then ['\\', c]
  else if c = '\n' then ['\\', 'n']
  else if c = '\r' then ['\\', 'r']
  else if c = '\t' then ['\\', 't']
  else if c.toNat = 0x8 then ['\\', 'b']
  else if c.toNat = 0xC then ['\\', 'f']
  else if c.toNat < 0x20 ∨ (charset = .ascii ∧ 0x7F ≤ c.toNat) then utf16Escape c
  else [c]

/-- A text in double quotes. -/
def quoteText (charset : Charset) (s : String) : List Char :=
  '\x22' :: s.toList.flatMap (escapeChar charset) ++ ['\x22']

mutual

/-- The characters of the compact text. -/
def chars (charset : Charset) : Json → List Char
  | .null => "null".toList
  | .bool b => (if b then "true" else "false").toList
  | .int n => (Numeral.ofInt n).toList
  | .float x => x.text.toList
  | .text s => quoteText charset s
  | .array items => '[' :: [','].intercalate (itemChars charset items) ++ [']']
  | .object members => '\x7b' :: [','].intercalate (memberChars charset members) ++ ['\x7d']

def itemChars (charset : Charset) : List Json → List (List Char)
  | [] => []
  | item :: rest => chars charset item :: itemChars charset rest

def memberChars (charset : Charset) : List (String × Json) → List (List Char)
  | [] => []
  | (key, value) :: rest =>
    (quoteText charset key ++ ':' :: chars charset value) :: memberChars charset rest

end

/-- The compact text of a value, with its members in their own order. -/
def compact (value : Json) : String :=
  String.ofList (value.chars .unicode)

/-- The text by which values are identified: ASCII only, with the members in the order of their
keys. -/
def canonicalText (value : Json) : String :=
  String.ofList (value.sortKeys.chars .ascii)

end EntityCompiler.Json
