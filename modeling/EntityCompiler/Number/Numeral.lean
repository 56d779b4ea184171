import EntityCompiler.Text.Blank
import EntityCompiler.Text.Digit

/-!
# Numerals

Decimal and hexadecimal texts of numbers, and the integers that a text denotes.
-/

namespace EntityCompiler.Numeral

/-- The decimal numeral of a natural number, without leading zeros. -/
def ofNat (n : Nat) : String :=
  String.ofList (Nat.toDigits 10 n)

/-- The decimal numeral of an integer. -/
def ofInt : Int → String
  | .ofNat n => ofNat n
  | .negSucc n => "-" ++ ofNat (n + 1)

/-- Zeros in front of the digits up to a width. -/
def padLeft (width : Nat) (digits : List Char) : List Char :=
  List.replicate (width - digits.length) '0' ++ digits

/-- The decimal numeral with at least `width` digits. -/
def padded (width n : Nat) : String :=
  String.ofList (padLeft width (Nat.toDigits 10 n))

/-- The lower-case hexadecimal numeral with at least `width` digits. -/
def hexDigits (width n : Nat) : List Char :=
  padLeft width (Nat.toDigits 16 n)

/-- The number written by a list of decimal digits, most significant first. -/
def ofDigits (digits : List Nat) : Nat :=
  digits.foldl (fun value digit ↦ 10 * value + digit) 0

/-- Whether a text has a minus sign in front, and what comes after the sign. -/
def splitSign : List Char → Bool × List Char
  | '-' :: rest => (true, rest)
  | '+' :: rest => (false, rest)
  | rest => (false, rest)

/-- The digits that follow a digit; a single underscore may stand between two of them. -/
def furtherDigits? : List Char → Option (List Nat)
  | [] => some []
  | '_' :: c :: rest => do
    let digit ← Text.digitValue? c
    let more ← furtherDigits? rest
    return digit :: more
  | c :: rest => do
    let digit ← Text.digitValue? c
    let more ← furtherDigits? rest
    return digit :: more

/-- The digits of a nonempty run, grouped by single underscores. -/
def groupedDigits? : List Char → Option (List Nat)
  | [] => none
  | c :: rest => do
    let digit ← Text.digitValue? c
    let more ← furtherDigits? rest
    return digit :: more

/-- The digits of every script as ASCII digits, without the underscores that stand between two of
them. -/
def plainDigits : (afterDigit : Bool) → List Char → List Char
  | _, [] => []
  | afterDigit, c :: rest =>
    match Text.digitValue? c with
    | some value => Char.ofNat (48 + value) :: plainDigits true rest
    | none =>
      if afterDigit && c = '_' && rest.head?.any Text.isDigit then plainDigits false rest
      else c :: plainDigits false rest

/-- How many digits a numeral may have. -/
def digitLimit : Nat := 4300

/-- Whether an integer has no more digits than a numeral may have. -/
def isWritable (n : Int) : Bool :=
  (Nat.toDigits 10 n.natAbs).length ≤ digitLimit

/-- Why a text denotes no integer. -/
inductive Fault where
  /-- It is not a numeral. -/
  | notANumeral (text : String)
  /-- It has more digits than a numeral may have. -/
  | tooLong (digits : Nat)
deriving DecidableEq, Repr

/-- Whether a character may stand in a run of grouped digits. -/
def isDigitOrUnderscore (c : Char) : Bool :=
  Text.isDigit c || c = '_'

/-- The integer that a text denotes: an optional sign and decimal digits of any script, with blanks
around them.  The run of digits at the front is judged before what comes after it. -/
def readInt (text : String) : Except Fault Int :=
  let (negative, unsigned) := splitSign (Text.trimBoth Text.isNumeralBlank text.toList)
  match groupedDigits? (unsigned.takeWhile isDigitOrUnderscore) with
  | none => .error (.notANumeral text)
  | some values =>
    if values.length > digitLimit then .error (.tooLong values.length)
    else if !(unsigned.dropWhile isDigitOrUnderscore).isEmpty then .error (.notANumeral text)
    else if negative then .ok (-(ofDigits values : Int))
    else .ok (ofDigits values)

end EntityCompiler.Numeral
