import EntityCompiler.Number.Numeral

/-!
# Bytes

The texts that bytes stand for in UTF-8, and the form in which bytes are shown inside a message.
-/

namespace EntityCompiler.Text

/-- The text with the given UTF-8 bytes. -/
def ofUtf8? (data : List UInt8) : Option String :=
  String.fromUTF8? data.toByteArray

/-- The number of bytes up to the first that no text has at its place. -/
def utf8Length (data : List UInt8) : Nat :=
  ((List.range (data.length + 1)).reverse.find? fun n ↦ (ofUtf8? (data.take n)).isSome).getD 0

/-- The quote that bytes are shown in. -/
def quoteForBytes (data : List UInt8) : UInt8 :=
  if data.contains 39 && !data.contains 34 then 34 else 39

/-- One of several bytes quoted with `quote`. -/
def quotedByte (quote byte : UInt8) : List Char :=
  let c := Char.ofNat byte.toNat
  if byte = quote ∨ c = '\\' then ['\\', c]
  else if c = '\t' then ['\\', 't']
  else if c = '\n' then ['\\', 'n']
  else if c = '\r' then ['\\', 'r']
  else if 32 ≤ byte ∧ byte < 127 then [c]
  else '\\' :: 'x' :: Numeral.hexDigits 2 byte.toNat

/-- The quoted form of bytes. -/
def quotedBytes (data : List UInt8) : String :=
  let quote := quoteForBytes data
  let mark := Char.ofNat quote.toNat
  String.ofList ('b' :: mark :: data.flatMap (quotedByte quote) ++ [mark])

end EntityCompiler.Text
