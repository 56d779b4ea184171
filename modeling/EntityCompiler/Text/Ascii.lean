/-!
# Letters and digits of ASCII

The classes of characters that names are made of.
-/

namespace EntityCompiler.Text

def isAsciiUpper (c : Char) : Bool :=
  'A' ≤ c && c ≤ 'Z'

def isAsciiLower (c : Char) : Bool :=
  'a' ≤ c && c ≤ 'z'

def isAsciiDigit (c : Char) : Bool :=
  '0' ≤ c && c ≤ '9'

end EntityCompiler.Text
