import EntityCompiler.Calendar.Date
import EntityCompiler.Number.Numeral

/-!
# Moments

A date with a time of day and, unless it is local, the offset from universal time.  Moments are
written in the extended ISO-8601 form and can be moved to universal time.
-/

namespace EntityCompiler

/-- A time of day with microseconds. -/
structure Clock where
  hour : Fin 24
  minute : Fin 60
  second : Fin 60
  microsecond : Fin 1000000
deriving DecidableEq, Repr

/-- An offset from universal time, shorter than a day. -/
structure Offset where
  microseconds : Int
  mem : -86400000000 < microseconds ∧ microseconds < 86400000000
deriving DecidableEq

/-- A date and a time of day, with an offset unless it is local. -/
structure Moment where
  date : Date
  clock : Clock
  offset : Option Offset
deriving DecidableEq

namespace Offset

def utc : Offset := ⟨0, by decide⟩

/-- Whether an offset has no seconds. -/
def wholeMinutes (o : Offset) : Bool :=
  o.microseconds % 60000000 = 0

/-- The sign and the hours and minutes of an offset. -/
def clockText (o : Offset) : String :=
  let size := o.microseconds.natAbs
  (if o.microseconds < 0 then "-" else "+") ++ Numeral.padded 2 (size / 3600000000) ++ ":" ++
    Numeral.padded 2 (size / 60000000 % 60)

/-- The seconds of an offset, with their fraction where they have one, and nothing without any. -/
def secondText (o : Offset) : String :=
  let rest := o.microseconds.natAbs % 60000000
  if rest = 0 then ""
  else ":" ++ Numeral.padded 2 (rest / 1000000) ++
    if rest % 1000000 = 0 then "" else "." ++ Numeral.padded 6 (rest % 1000000)

/-- The offset as a sign, hours and minutes, and seconds if there are any. -/
def text (o : Offset) : String :=
  o.clockText ++ o.secondText

/-- The offset as it stands in a dump: rounded to seconds, of which the full minutes are shown. -/
def dumpText (o : Offset) : String :=
  let seconds := (o.microseconds.natAbs + 500000) / 1000000
  if seconds = 0 then "Z"
  else (if o.microseconds < 0 then "-" else "+") ++ Numeral.padded 2 (seconds / 3600) ++ ":" ++
    Numeral.padded 2 (seconds / 60 % 60)

end Offset

namespace Clock

def midnight : Clock := ⟨0, 0, 0, 0⟩

/-- The microseconds since midnight. -/
def microseconds (c : Clock) : Nat :=
  (60 * (60 * c.hour.val + c.minute.val) + c.second.val) * 1000000 + c.microsecond.val

/-- The time of day at a number of microseconds since midnight. -/
def ofMicroseconds (n : Nat) : Clock where
  hour := Fin.ofNat 24 (n / 3600000000)
  minute := Fin.ofNat 60 (n / 60000000)
  second := Fin.ofNat 60 (n / 1000000)
  microsecond := Fin.ofNat 1000000 n

/-- Hours, minutes and seconds. -/
def text (c : Clock) : String :=
  Numeral.padded 2 c.hour.val ++ ":" ++ Numeral.padded 2 c.minute.val ++ ":" ++
    Numeral.padded 2 c.second.val

/-- The microseconds as a decimal fraction, nothing when there are none. -/
def fractionText (c : Clock) : String :=
  if c.microsecond.val = 0 then "" else "." ++ Numeral.padded 6 c.microsecond.val

end Clock

namespace Date

/-- Year, month and day, the year with four digits. -/
def text (d : Date) : String :=
  Numeral.padded 4 d.year ++ "-" ++ Numeral.padded 2 d.month ++ "-" ++ Numeral.padded 2 d.day

/-- Year, month and day, the year without leading zeros. -/
def shortText (d : Date) : String :=
  Numeral.ofNat d.year ++ "-" ++ Numeral.padded 2 d.month ++ "-" ++ Numeral.padded 2 d.day

end Date

namespace Moment

/-- Date and time with `separator` between them, then the offset. -/
def textWith (separator : String) (zone : Offset → String) (t : Moment) : String :=
  t.date.text ++ separator ++ t.clock.text ++ t.clock.fractionText ++
    match t.offset with
    | some o => zone o
    | none => ""

/-- The extended ISO-8601 form. -/
def isoText (t : Moment) : String :=
  t.textWith "T" Offset.text

/-- The form with a space between date and time. -/
def spacedText (t : Moment) : String :=
  t.textWith " " Offset.text

/-- The ISO-8601 form in which the offset of universal time is written `Z`. -/
def zuluText (t : Moment) : String :=
  t.textWith "T" Offset.dumpText

/-- Whether a moment is local or its offset has no seconds. -/
def wholeMinutes (t : Moment) : Bool :=
  t.offset.all Offset.wholeMinutes

/-- The same instant in universal time, if the calendar has its day.  A local moment is taken as it
is. -/
def toUtc? (t : Moment) : Option Moment :=
  match t.offset with
  | none => some t
  | some o =>
    let time : Int := t.clock.microseconds - o.microseconds
    let day :=
      if time < 0 then t.date.previous?
      else if 86400000000 ≤ time then t.date.next?
      else some t.date
    day.map fun date ↦ ⟨date, .ofMicroseconds (time % 86400000000).toNat, some Offset.utc⟩

/-- Microseconds on the calendar's own clock, an offset being subtracted. -/
def microseconds (t : Moment) : Int :=
  let time : Int := 86400000000 * t.date.dayNumber + t.clock.microseconds
  match t.offset with
  | some o => time - o.microseconds
  | none => time

/-- Whether two moments are the same instant.  A local moment is never one with an offset. -/
def sameInstant (s t : Moment) : Bool :=
  s.offset.isSome = t.offset.isSome && s.microseconds = t.microseconds

end Moment

end EntityCompiler
