import EntityCompiler.Text.Ascii

/-!
# Capital letters

The capital form of a text as far as it is in ASCII.  Some letters and ligatures outside ASCII have
capital forms in it.
-/

namespace EntityCompiler.Text

/-- The letters and ligatures outside ASCII whose capital forms are in ASCII. -/
def foreignCapitals : List (Nat × String) :=
  [(0xDF, "SS"), (0x131, "I"), (0x17F, "S"), (0xFB00, "FF"), (0xFB01, "FI"), (0xFB02, "FL"),
   (0xFB03, "FFI"), (0xFB04, "FFL"), (0xFB05, "ST"), (0xFB06, "ST")]

/-- The capital form of a character if it is in ASCII, else the character itself. -/
def asciiCapitals (c : Char) : List Char :=
  if isAsciiLower c then [Char.ofNat (c.toNat - 32)]
  else
    match foreignCapitals.find? fun entry ↦ entry.1 = c.toNat with
    | some (_, capitals) => capitals.toList
    | none => [c]

/-- The text with every character in its ASCII capital form. -/
def toAsciiCapitals (s : String) : String :=
  String.ofList (s.toList.flatMap asciiCapitals)

end EntityCompiler.Text
