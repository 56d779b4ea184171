import EntityCompiler.Number.Numeral

/-!
# Binary floating-point numbers

Numbers in the 64-bit binary format, with the shortest decimal text that reads back to each, the
reading of decimal texts, and the comparison with integers.  All arithmetic is exact.
-/

namespace EntityCompiler

/-- A finite number of the 64-bit binary format: a sign, a biased exponent and the 52 fraction bits. -/
structure Finite64 where
  negative : Bool
  exponent : Fin 2047
  fraction : Fin 4503599627370496
deriving DecidableEq, Repr

/-- A number of the 64-bit binary format. -/
inductive Binary64 where
  | finite (x : Finite64)
  | infinity (negative : Bool)
  | nan
deriving DecidableEq, Repr

namespace Finite64

/-- The significand as a natural number.  The leading bit, `2 ^ 52`, is implicit unless the biased
exponent is zero. -/
def significand (x : Finite64) : Nat :=
  if x.exponent.val = 0 then x.fraction.val else 4503599627370496 + x.fraction.val

/-- The power of two that the significand is multiplied by. -/
def scale (x : Finite64) : Int :=
  if x.exponent.val = 0 then -1074 else (x.exponent.val : Int) - 1075

/-- A power of a base as a fraction. -/
def power (base : Nat) (e : Int) : Nat × Nat :=
  if e < 0 then (1, Nat.pow base e.natAbs) else (Nat.pow base e.toNat, 1)

/-- The integer that the number equals, if there is one. -/
def toInt? (x : Finite64) : Option Int :=
  let (num, den) := power 2 x.scale
  let magnitude := x.significand * num
  if magnitude % den = 0 then
    let value : Int := magnitude / den
    some (if x.negative then -value else value)
  else none

/-- Whether two numbers are equal as reals: the two zeros are. -/
def sameValue (x y : Finite64) : Bool :=
  x = y || (x.significand = 0 && y.significand = 0)

/-! ## The shortest text -/

/-- A decimal number `digits · 10 ^ exponent`. -/
structure Decimal where
  digits : Nat
  exponent : Int
deriving DecidableEq, Repr

/-- The numbers that round to a given one, as an interval in units of `10 ^ exponent`, all over the
common denominator `den`.  The ends belong to it when `closed` holds. -/
structure Neighbourhood where
  value : Nat
  low : Nat
  high : Nat
  den : Nat
  closed : Bool

/-- The neighbourhood of a number that is not zero.  Below a power of two the next number is half as
far away. -/
def neighbourhood (x : Finite64) : Neighbourhood :=
  let (num, den) := power 2 x.scale
  let m := x.significand
  let below := if x.fraction.val = 0 ∧ 1 < x.exponent.val then 4 * m - 1 else 4 * m - 2
  { value := 4 * m * num
    low := below * num
    high := (4 * m + 2) * num
    den := 4 * den
    closed := m % 2 = 0 }

/-- Whether `n` units of size `unitNum / unitDen` lie in the neighbourhood. -/
def Neighbourhood.holds (around : Neighbourhood) (n unitNum unitDen : Nat) : Bool :=
  let point := n * unitNum * around.den
  if around.closed then around.low * unitDen ≤ point && point ≤ around.high * unitDen
  else around.low * unitDen < point && point < around.high * unitDen

/-- The number of units nearest to the value among the two next to it, an even number when both are
equally near, if one of them lies in the neighbourhood. -/
def Neighbourhood.nearest? (around : Neighbourhood) (exponent : Int) : Option Decimal :=
  let (unitNum, unitDen) := power 10 exponent
  let num := around.value * unitDen
  let den := around.den * unitNum
  let floor := num / den
  let twice := 2 * (num % den)
  let roundDown := if twice = den then floor % 2 = 0 else twice < den
  let first := if roundDown then floor else floor + 1
  let second := if roundDown then floor + 1 else floor
  if around.holds first unitNum unitDen then some ⟨first, exponent⟩
  else if around.holds second unitNum unitDen then some ⟨second, exponent⟩
  else none

/-- The exponent of the leading decimal digit of `num / den`, which is not zero. -/
def leadingExponent (num den : Nat) : Int :=
  let guess : Int := (Nat.toDigits 10 num).length - (Nat.toDigits 10 den).length
  let (tenNum, tenDen) := power 10 guess
  if den * tenNum ≤ num * tenDen then guess else guess - 1

/-- The decimal number with the fewest digits in the neighbourhood of a number that is not zero.
Seventeen digits are always enough. -/
def shortestDecimal (x : Finite64) : Decimal :=
  let around := x.neighbourhood
  let leading := leadingExponent around.value around.den
  let candidates := (List.range 17).map fun (n : Nat) ↦ around.nearest? (leading - n)
  (candidates.findSome? id).getD ⟨0, 0⟩

/-- The digits without the zeros at their end. -/
def dropTrailingZeros (digits : List Char) : List Char :=
  (digits.reverse.dropWhile (· = '0')).reverse

/-- How a finite number is written: positional from `10 ^ (-4)` up to `10 ^ 16`, with a mantissa and
an exponent of at least two digits beyond. -/
def layout (digits : List Char) (leading : Int) : List Char :=
  if -4 ≤ leading ∧ leading < 0 then
    '0' :: '.' :: List.replicate (leading.natAbs - 1) '0' ++ digits
  else if 0 ≤ leading ∧ leading < 16 then
    let size := leading.toNat + 1
    if digits.length ≤ size then
      digits ++ List.replicate (size - digits.length) '0' ++ ['.', '0']
    else digits.take size ++ '.' :: digits.drop size
  else
    let mantissa :=
      match digits with
      | [] => []
      | [d] => [d]
      | d :: more => d :: '.' :: more
    let sign := if leading < 0 then '-' else '+'
    mantissa ++ 'e' :: sign :: Numeral.padLeft 2 (Nat.toDigits 10 leading.natAbs)

/-- The shortest text that reads back to the number. -/
def text (x : Finite64) : String :=
  let body :=
    if x.significand = 0 then ['0', '.', '0']
    else
      let decimal := x.shortestDecimal
      let digits := Nat.toDigits 10 decimal.digits
      layout (dropTrailingZeros digits) (decimal.exponent + digits.length - 1)
  String.ofList (if x.negative then '-' :: body else body)

end Finite64

namespace Binary64

/-- The text of a number: the shortest one that reads back, or the name of a special value. -/
def text : Binary64 → String
  | .finite x => x.text
  | .infinity negative => if negative then "-inf" else "inf"
  | .nan => "nan"

/-- The integer that the number equals, if there is one. -/
def toInt? : Binary64 → Option Int
  | .finite x => x.toInt?
  | _ => none

/-- Equality of the values: the two zeros are equal and nothing equals `nan`. -/
def sameValue : Binary64 → Binary64 → Bool
  | .finite x, .finite y => x.sameValue y
  | .infinity a, .infinity b => a = b
  | _, _ => false

/-! ## Reading -/

/-- The nearest integer to a quotient, the even one of two equally near. -/
def roundHalfEven (num den : Nat) : Nat :=
  let floor := num / den
  let twice := 2 * (num % den)
  if twice < den then floor
  else if den < twice then floor + 1
  else if floor % 2 = 0 then floor else floor + 1

/-- The number with significand `m` and scale `q`, where `m ≤ 2 ^ 53` and `q` is at least `-1074`. -/
def compose (negative : Bool) (m : Nat) (q : Int) : Binary64 :=
  let (m, q) := if m = 9007199254740992 then (4503599627370496, q + 1) else (m, q)
  if m < 4503599627370496 then .finite ⟨negative, 0, Fin.ofNat 4503599627370496 m⟩
  else
    let exponent := (q + 1075).toNat
    if h : exponent < 2047 then .finite ⟨negative, ⟨exponent, h⟩, Fin.ofNat 4503599627370496 m⟩
    else .infinity negative

/-- The number nearest to a quotient. -/
def ofQuotient (negative : Bool) (num den : Nat) : Binary64 :=
  if num = 0 then .finite ⟨negative, 0, 0⟩
  else
    let guess : Int := (Nat.log2 num : Int) - Nat.log2 den
    let (twoNum, twoDen) := Finite64.power 2 guess
    let leading := if den * twoNum ≤ num * twoDen then guess else guess - 1
    let q := max (-1074) (leading - 52)
    let (scaleNum, scaleDen) := Finite64.power 2 q
    compose negative (roundHalfEven (num * scaleDen) (den * scaleNum)) q

/-- The number nearest to `digits · 10 ^ exponent`. -/
def ofDecimal (negative : Bool) (digits : Nat) (exponent : Int) : Binary64 :=
  let (num, den) := Finite64.power 10 exponent
  ofQuotient negative (digits * num) den

/-- The integer written by an exponent part, which is empty or starts with the letter e. -/
def readExponent? : List Char → Option Int
  | [] => some 0
  | e :: rest => do
    let (negative, body) := Numeral.splitSign rest
    let digits ← body.mapM Text.asciiDigit?
    if (e = 'e' ∨ e = 'E') ∧ digits ≠ [] then
      return if negative then -(Numeral.ofDigits digits : Int) else Numeral.ofDigits digits
    else none

/-- The digits after a point, if there is one in front, and what comes after them. -/
def splitFraction : List Char → List Char × List Char
  | '.' :: more => (more.takeWhile Char.isDigit, more.dropWhile Char.isDigit)
  | rest => ([], rest)

/-- The decimal number written by an unsigned text. -/
def readDecimal? (body : List Char) : Option Finite64.Decimal := do
  let whole := body.takeWhile Char.isDigit
  let (fraction, rest) := splitFraction (body.dropWhile Char.isDigit)
  let digits ← (whole ++ fraction).mapM Text.asciiDigit?
  if digits.isEmpty then none
  else
    let exponent ← readExponent? rest
    return ⟨Numeral.ofDigits digits, exponent - fraction.length⟩

/-- The number denoted by an unsigned decimal text. -/
def readUnsigned? (negative : Bool) (body : List Char) : Option Binary64 :=
  (readDecimal? body).map fun d ↦ ofDecimal negative d.digits d.exponent

/-- The number denoted by a text: a decimal number with an optional exponent, an infinity or `nan`,
with blanks around it.  Digits may be of any script and grouped by single underscores. -/
def read? (text : String) : Option Binary64 :=
  let (negative, body) :=
    Numeral.splitSign (Numeral.plainDigits false (Text.trimBoth Text.isNumeralBlank text.toList))
  let name := String.ofList (body.map Char.toLower)
  if name = "nan" then some .nan
  else if name = "inf" ∨ name = "infinity" then some (.infinity negative)
  else readUnsigned? negative body

end Binary64

end EntityCompiler
