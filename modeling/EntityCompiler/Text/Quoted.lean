import EntityCompiler.Number.Numeral
import EntityCompiler.Text.Printable

/-!
# Quoted texts

The quoted form in which a text is shown inside a message.  Single quotes are used unless the text
holds single quotes and no double ones.
-/

namespace EntityCompiler.Text

/-- The quote that a text is shown in. -/
def quoteFor (text : List Char) : Char :=
  if text.contains '\x27' && !text.contains '\x22' then '\x22' else '\x27'

/-- A character by its code, in the shortest of the forms with two, four and eight digits. -/
def codeEscape (c : Char) : List Char :=
  if c.toNat < 0x100 then '\\' :: 'x' :: Numeral.hexDigits 2 c.toNat
  else if c.toNat < 0x10000 then '\\' :: 'u' :: Numeral.hexDigits 4 c.toNat
  else '\\' :: 'U' :: Numeral.hexDigits 8 c.toNat

/-- One character of a text quoted with `quote`. -/
def quotedChar (quote c : Char) : List Char :=
  if c = quote ∨ c = '\\' then ['\\', c]
  else if c = '\n' then ['\\', 'n']
  else if c = '\r' then ['\\', 'r']
  else if c = '\t' then ['\\', 't']
  else if isPrintable c then [c]
  else codeEscape c

/-- The quoted form of a text. -/
def quoted (text : String) : String :=
  let quote := quoteFor text.toList
  String.ofList (quote :: text.toList.flatMap (quotedChar quote) ++ [quote])

/-- The quoted form of a text that may be missing. -/
def quotedOption : Option String → String
  | some text => quoted text
  | none => "None"

end EntityCompiler.Text
