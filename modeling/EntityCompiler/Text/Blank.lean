/-!
# Blank characters

The characters that count as blank at the ends of a text, and the text without them.
-/

namespace EntityCompiler.Text

/-- The blank characters: the control characters that separate lines and fields, the ASCII space,
and the spaces and separators of Unicode. -/
def blankCodes : List Nat :=
  [0x9, 0xA, 0xB, 0xC, 0xD, 0x1C, 0x1D, 0x1E, 0x1F, 0x20, 0x85, 0xA0, 0x1680,
   0x2000, 0x2001, 0x2002, 0x2003, 0x2004, 0x2005, 0x2006, 0x2007, 0x2008, 0x2009, 0x200A,
   0x2028, 0x2029, 0x202F, 0x205F, 0x3000]

def isBlank (c : Char) : Bool :=
  blankCodes.contains c.toNat

/-- Blanks that may surround a numeral.  The four information separators are blank in a text but
do not separate numerals. -/
def isNumeralBlank (c : Char) : Bool :=
  isBlank c && !(0x1C ≤ c.toNat && c.toNat ≤ 0x1F)

/-- The characters left when those satisfying `drop` are removed from both ends. -/
def trimBoth (drop : Char → Bool) (text : List Char) : List Char :=
  ((text.dropWhile drop).reverse.dropWhile drop).reverse

/-- The text without the blanks at its ends. -/
def trim (text : String) : String :=
  String.ofList (trimBoth isBlank text.toList)

end EntityCompiler.Text
