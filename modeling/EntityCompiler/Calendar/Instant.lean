import EntityCompiler.Calendar.Moment
import EntityCompiler.Text.Quoted

/-!
# Reading instants

The texts that denote an instant: a date, optionally followed by a time with seconds and an offset,
in the extended ISO-8601 form.  Reading goes in two steps.  First the text is cut into its fields,
whose digits may be of any script; then the fields have to be ASCII numerals within their ranges.
-/

namespace EntityCompiler.Instant

/-- The offset field of a text. -/
inductive ZoneField where
  | zulu
  | signed (negative : Bool) (hour minute : List Char)
deriving DecidableEq, Repr

/-- The fields that follow the date. -/
structure ClockField where
  hour : List Char
  minute : List Char
  second : List Char
  fraction : List Char
  zone : Option ZoneField
deriving DecidableEq, Repr

/-- The fields of a text that has the form of an instant. -/
structure Fields where
  year : List Char
  month : List Char
  day : List Char
  clock : Option ClockField
deriving DecidableEq, Repr

/-- What is wrong with the fields of a text. -/
inductive Fault where
  | yearCharacter
  | monthCharacter
  | dayCharacter
  | monthRange
  | dayRange
  /-- Something in the time or the offset. -/
  | clock
  | yearZero
deriving DecidableEq, Repr

/-- Why a value is no instant. -/
inductive Refusal where
  /-- It is neither a moment nor a text. -/
  | notAText (typeName : String)
  /-- It is the name of a column type, given in the form that it has in messages. -/
  | columnType (shown : String)
  /-- The text does not have the form of an instant. -/
  | form (text : String)
  /-- A field is out of range. -/
  | field (text : String) (fault : Fault)
deriving DecidableEq, Repr

/-! ## Cutting into fields -/

/-- The next two digits. -/
def pair? : List Char → Option (List Char × List Char)
  | a :: b :: rest => if Text.isDigit a && Text.isDigit b then some ([a, b], rest) else none
  | _ => none

/-- The next two digits after a given character. -/
def pairAfter? (mark : Char) : List Char → Option (List Char × List Char)
  | c :: rest => if c = mark then pair? rest else none
  | [] => none

/-- The offset at the end of a text. -/
def zoneField? : List Char → Option (Option ZoneField)
  | [] => some none
  | ['Z'] => some (some .zulu)
  | sign :: rest =>
    if sign = '+' ∨ sign = '-' then do
      let (hour, rest) ← pair? rest
      let (minute, rest) ← pairAfter? ':' rest
      if rest.isEmpty then some (some (.signed (sign = '-') hour minute)) else none
    else none

/-- The optional fraction of a second, one to six digits after a point. -/
def fractionField? : List Char → Option (List Char × List Char)
  | '.' :: rest =>
    let digits := rest.takeWhile Text.isDigit
    if 1 ≤ digits.length ∧ digits.length ≤ 6 then some (digits, rest.dropWhile Text.isDigit)
    else none
  | rest => some ([], rest)

/-- The time at the end of a text, after the letter T or a space. -/
def clockField? : List Char → Option (Option ClockField)
  | [] => some none
  | separator :: rest =>
    if separator = 'T' ∨ separator = ' ' then do
      let (hour, rest) ← pair? rest
      let (minute, rest) ← pairAfter? ':' rest
      let (second, rest) ← pairAfter? ':' rest
      let (fraction, rest) ← fractionField? rest
      let zone ← zoneField? rest
      return some ⟨hour, minute, second, fraction, zone⟩
    else none

/-- The fields of a text. -/
def fields? (text : List Char) : Option Fields := do
  let (century, rest) ← pair? text
  let (year, rest) ← pair? rest
  let (month, rest) ← pairAfter? '-' rest
  let (day, rest) ← pairAfter? '-' rest
  let clock ← clockField? rest
  return ⟨century ++ year, month, day, clock⟩

/-! ## Reading the fields -/

/-- The number written in ASCII digits. -/
def number? (digits : List Char) : Option Nat :=
  (digits.mapM Text.asciiDigit?).map Numeral.ofDigits

/-- A numeral below `bound`. -/
def numberBelow? (bound : Nat) (digits : List Char) : Option (Fin bound) := do
  let n ← number? digits
  if h : n < bound then some ⟨n, h⟩ else none

def offset? : ZoneField → Option Offset
  | .zulu => some Offset.utc
  | .signed negative hour minute => do
    let hour ← numberBelow? 24 hour
    let minute ← numberBelow? 60 minute
    let size : Int := 60000000 * (60 * hour.val + minute.val)
    have bounded : 0 ≤ size ∧ size < 86400000000 := by omega
    if negative then some ⟨-size, by omega⟩ else some ⟨size, by omega⟩

/-- The time of day and the offset. -/
def clock? (field : ClockField) : Option (Clock × Option Offset) := do
  let hour ← numberBelow? 24 field.hour
  let minute ← numberBelow? 60 field.minute
  let second ← numberBelow? 60 field.second
  let padding := List.replicate (6 - field.fraction.length) '0'
  let microsecond ← numberBelow? 1000000 (field.fraction ++ padding)
  let offset ← match field.zone with
    | none => some none
    | some zone => (offset? zone).map some
  return (⟨hour, minute, second, microsecond⟩, offset)

/-- The date and time denoted by the fields.  Characters are looked at before ranges, the date
before the time, and the year zero last. -/
def ofFields (fields : Fields) : Except Fault Moment := do
  let some year := number? fields.year | .error .yearCharacter
  let some month := number? fields.month | .error .monthCharacter
  let some day := number? fields.day | .error .dayCharacter
  if month = 0 ∨ 12 < month then .error .monthRange
  if day = 0 ∨ daysInMonth year month < day then .error .dayRange
  let (clock, offset) ←
    match fields.clock with
    | none => .ok (Clock.midnight, none)
    | some field =>
      match clock? field with
      | some result => .ok result
      | none => .error .clock
  match Date.of? year month day with
  | some date => .ok ⟨date, clock, offset⟩
  | none => .error .yearZero

/-- The instant that a text denotes. -/
def read (text : String) : Except Refusal Moment :=
  match fields? text.toList with
  | none => .error (.form text)
  | some fields =>
    match ofFields fields with
    | .ok moment => .ok moment
    | .error fault => .error (.field text fault)

/-! ## Messages -/

def Fault.message : Fault → String
  | .yearCharacter => "Input should be a valid datetime or date, invalid character in year"
  | .monthCharacter => "Input should be a valid datetime or date, invalid character in month"
  | .dayCharacter => "Input should be a valid datetime or date, invalid character in day"
  | .monthRange =>
    "Input should be a valid datetime or date, month value is outside expected range of 1-12"
  | .dayRange =>
    "Input should be a valid datetime or date, day value is outside expected range"
  | .clock =>
    "Input should be a valid datetime or date, unexpected extra characters at the end of the input"
  | .yearZero => "Input should be a valid datetime, year 0 is out of range"

def Refusal.message : Refusal → String
  | .notAText typeName => "Expected an ISO-8601 string, got " ++ typeName
  | .columnType shown => "Not an extended ISO-8601 instant: " ++ shown
  | .form text => "Not an extended ISO-8601 instant: " ++ Text.quoted text
  | .field text fault =>
    "Invalid ISO-8601 instant " ++ Text.quoted text ++ ": " ++ fault.message

end EntityCompiler.Instant
