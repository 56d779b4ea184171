import EntityCompiler.Proofs.Calendar.Fields
import EntityCompiler.Value.Moment

/-!
# Texts of instants

The texts that denote a moment: its date in ten characters, and unless it is the local midnight of that
date a time with seconds, with a fraction and an offset where they are given.  Reading accepts exactly
these texts.  The extended ISO-8601 form is one of them, so that reading it gives the moment back.
-/

namespace EntityCompiler

open Numeral

/-! ## The texts of a moment -/

/-- The texts of an offset: none for a local moment, the letter `Z` for universal time, or a sign with
hours and minutes. -/
inductive Offset.Written : String → Option Offset → Prop
  | absent : Written "" none
  | zulu : Written "Z" (some utc)
  | ahead (hour : Fin 24) (minute : Fin 60) {o : Offset}
      (h : o.microseconds = 60000000 * (60 * hour.val + minute.val)) :
      Written ("+" ++ padded 2 hour.val ++ ":" ++ padded 2 minute.val) (some o)
  | behind (hour : Fin 24) (minute : Fin 60) {o : Offset}
      (h : o.microseconds = -(60000000 * (60 * hour.val + minute.val) : Int)) :
      Written ("-" ++ padded 2 hour.val ++ ":" ++ padded 2 minute.val) (some o)

/-- The texts of a number of microseconds as a fraction of a second: none, or a point and one to six
digits.  The digits that are missing are zeros. -/
inductive Clock.FractionWritten : String → Nat → Prop
  | absent : FractionWritten "" 0
  | digits {width n : Nat} (hwidth : 1 ≤ width ∧ width ≤ 6) (hn : n < 10 ^ width) :
      FractionWritten ("." ++ padded width n) (n * 10 ^ (6 - width))

/-- The texts of a moment: the date alone for its local midnight, or the date, the letter T or a space,
the time with seconds, a fraction and an offset. -/
inductive Moment.Written : String → Moment → Prop
  | date (d : Date) : Written d.text ⟨d, Clock.midnight, none⟩
  | time {t : Moment} {separator fraction zone : String} (hseparator : separator = "T" ∨ separator = " ")
      (hfraction : Clock.FractionWritten fraction t.clock.microsecond.val)
      (hzone : Offset.Written zone t.offset) :
      Written (t.date.text ++ separator ++ t.clock.text ++ fraction ++ zone) t

theorem Date.day_le (d : Date) : d.day ≤ 31 := by
  have hmonth : daysInMonth d.year d.month ≤ 31 := by
    unfold daysInMonth
    split_ifs <;> decide
  exact d.day_mem.2.trans hmonth

theorem Date.toList_text (d : Date) :
    d.text.toList = fixedDigits 10 4 d.year ++ '-' :: (fixedDigits 10 2 d.month ++
      '-' :: fixedDigits 10 2 d.day) := by
  have hyear : (padded 4 d.year).toList = fixedDigits 10 4 d.year :=
    toList_padded (by decide) (lt_of_le_of_lt d.year_mem.2 (by decide))
  have hmonth : (padded 2 d.month).toList = fixedDigits 10 2 d.month :=
    toList_padded (by decide) (lt_of_le_of_lt d.month_mem.2 (by decide))
  have hday : (padded 2 d.day).toList = fixedDigits 10 2 d.day :=
    toList_padded (by decide) (lt_of_le_of_lt d.day_le (by decide))
  simp [Date.text, hyear, hmonth, hday]

theorem toList_padded_two {bound : Nat} (hbound : bound ≤ 100) (n : Fin bound) :
    (padded 2 n.val).toList = fixedDigits 10 2 n.val :=
  toList_padded (by decide) (n.isLt.trans_le hbound)

theorem Clock.toList_text (c : Clock) :
    c.text.toList = fixedDigits 10 2 c.hour.val ++ ':' :: (fixedDigits 10 2 c.minute.val ++
      ':' :: fixedDigits 10 2 c.second.val) := by
  have hhour := toList_padded_two (by decide) c.hour
  have hminute := toList_padded_two (by decide) c.minute
  have hsecond := toList_padded_two (by decide) c.second
  simp [Clock.text, hhour, hminute, hsecond]

namespace Instant

theorem eq_fixedDigits_of_number? {width n : Nat} {digits : List Char} (hlength : digits.length = width)
    (h : number? digits = some n) : digits = fixedDigits 10 width n :=
  hlength ▸ (number?_eq_some_iff.mp h).1

theorem isPair_fixedDigits (n : Nat) : IsPair (fixedDigits 10 2 n) :=
  ⟨length_fixedDigits _ _ _, fun _ hc ↦ isDigit_of_mem_fixedDigits hc⟩

theorem number?_fixedDigits_two {bound : Nat} (hbound : bound ≤ 100) (n : Fin bound) :
    number? (fixedDigits 10 2 n.val) = some n.val :=
  number?_fixedDigits (n.isLt.trans_le hbound)

/-- The characters of a sign, hours and minutes. -/
theorem toList_signed (sign : String) (hour : Fin 24) (minute : Fin 60) :
    (sign ++ padded 2 hour.val ++ ":" ++ padded 2 minute.val).toList =
      sign.toList ++ (fixedDigits 10 2 hour.val ++ ':' :: fixedDigits 10 2 minute.val) := by
  have hhour := toList_padded_two (by decide) hour
  have hminute := toList_padded_two (by decide) minute
  simp [hhour, hminute]

/-- The texts of an offset are the characters of the offset fields that denote it. -/
theorem offset_written_iff {s : String} {offset : Option Offset} :
    Offset.Written s offset ↔
      ∃ zone, s.toList = ZoneField.chars zone ∧ ZoneField.Paired zone ∧ zone? zone = some offset := by
  constructor
  · intro h
    cases h with
    | absent => exact ⟨none, rfl, trivial, rfl⟩
    | zulu => exact ⟨some .zulu, rfl, trivial, rfl⟩
    | ahead hour minute h =>
      refine ⟨some (.signed false (fixedDigits 10 2 hour.val) (fixedDigits 10 2 minute.val)),
        toList_signed "+" hour minute, ⟨isPair_fixedDigits _, isPair_fixedDigits _⟩, ?_⟩
      exact zone?_signed_eq_some_iff.mpr ⟨hour, minute, _, number?_fixedDigits_two (by decide) hour,
        number?_fixedDigits_two (by decide) minute, rfl, h⟩
    | behind hour minute h =>
      refine ⟨some (.signed true (fixedDigits 10 2 hour.val) (fixedDigits 10 2 minute.val)),
        toList_signed "-" hour minute, ⟨isPair_fixedDigits _, isPair_fixedDigits _⟩, ?_⟩
      exact zone?_signed_eq_some_iff.mpr ⟨hour, minute, _, number?_fixedDigits_two (by decide) hour,
        number?_fixedDigits_two (by decide) minute, rfl, h⟩
  · rintro ⟨zone, hchars, hpaired, hoffset⟩
    match zone, hpaired with
    | none, _ =>
      obtain rfl : s = "" := String.toList_inj.mp hchars
      obtain rfl : none = offset := Option.some.inj hoffset
      exact .absent
    | some .zulu, _ =>
      obtain rfl : s = "Z" := String.toList_inj.mp hchars
      obtain rfl : some Offset.utc = offset := Option.some.inj hoffset
      exact .zulu
    | some (.signed negative hour minute), ⟨hhour, hminute⟩ =>
      obtain ⟨h, m, o, hh, hm, rfl, ho⟩ := zone?_signed_eq_some_iff.mp hoffset
      obtain rfl := eq_fixedDigits_of_number? hhour.length hh
      obtain rfl := eq_fixedDigits_of_number? hminute.length hm
      cases negative with
      | false =>
        obtain rfl := String.toList_inj.mp (hchars.trans (toList_signed "+" h m).symm)
        exact .ahead h m ho
      | true =>
        obtain rfl := String.toList_inj.mp (hchars.trans (toList_signed "-" h m).symm)
        exact .behind h m ho

/-- The characters of a fraction of a fixed width. -/
theorem toList_fraction {width n : Nat} (hwidth : 1 ≤ width) (hn : n < 10 ^ width) :
    ("." ++ padded width n).toList = fractionChars (fixedDigits 10 width n) := by
  have hdigits : fixedDigits 10 width n ≠ [] := by
    rw [← List.length_pos_iff, length_fixedDigits]
    exact hwidth
  rw [fractionChars_of_ne_nil hdigits, String.toList_append, toList_padded hwidth hn]
  rfl

/-- The texts of a fraction are the characters of its digits. -/
theorem fraction_written_iff {s : String} {microsecond : Nat} :
    Clock.FractionWritten s microsecond ↔ ∃ digits n, s.toList = fractionChars digits ∧
      IsFraction digits ∧ number? digits = some n ∧ n * 10 ^ (6 - digits.length) = microsecond := by
  constructor
  · intro h
    cases h with
    | absent => exact ⟨[], 0, rfl, ⟨by decide, nofun⟩, rfl, rfl⟩
    | @digits width n hwidth hn =>
      have hlength := length_fixedDigits 10 width n
      exact ⟨fixedDigits 10 width n, n, toList_fraction hwidth.1 hn,
        ⟨hlength.trans_le hwidth.2, fun c hc ↦ isDigit_of_mem_fixedDigits hc⟩,
        number?_fixedDigits hn, by rw [hlength]⟩
  · rintro ⟨digits, n, hchars, hfraction, hnumber, rfl⟩
    obtain ⟨hdigits, hn⟩ := number?_eq_some_iff.mp hnumber
    by_cases hempty : digits = []
    · subst hempty
      obtain rfl : 0 = n := Option.some.inj hnumber
      obtain rfl : s = "" := String.toList_inj.mp hchars
      exact .absent
    · have hwidth : 1 ≤ digits.length := List.length_pos_iff.mpr hempty
      have htext : s = "." ++ padded digits.length n := by
        rw [← String.toList_inj, toList_fraction hwidth hn, ← hdigits, hchars]
      rw [htext]
      exact .digits ⟨hwidth, hfraction.length_le⟩ hn

theorem dateChars_eq_toList {fields : Fields} (hsized : fields.Sized) {d : Date}
    (hyear : number? fields.year = some d.year) (hmonth : number? fields.month = some d.month)
    (hday : number? fields.day = some d.day) : fields.dateChars = d.text.toList := by
  rw [Fields.dateChars, Date.toList_text, eq_fixedDigits_of_number? hsized.year.1 hyear,
    eq_fixedDigits_of_number? hsized.month.length hmonth,
    eq_fixedDigits_of_number? hsized.day.length hday]

theorem read_eq_ok_iff_fields {s : String} {t : Moment} :
    read s = .ok t ↔ ∃ fields, fields? s.toList = some fields ∧ ofFields fields = .ok t := by
  rw [read]
  cases fields? s.toList with
  | none => simp
  | some fields => cases hfields : ofFields fields <;> simp [hfields]

/-- The fields of a date, with those of a time. -/
def fieldsOf (d : Date) (clock : Option ClockField) : Fields :=
  ⟨fixedDigits 10 4 d.year, fixedDigits 10 2 d.month, fixedDigits 10 2 d.day, clock⟩

theorem read_of_clockField? {s : String} {t : Moment} {clock : Option ClockField} {rest : List Char}
    (hchars : s.toList = t.date.text.toList ++ rest) (hclock : clockField? rest = some clock)
    (htime : time? clock = some (t.clock, t.offset)) : read s = .ok t := by
  have hyear : number? (fixedDigits 10 4 t.date.year) = some t.date.year :=
    number?_fixedDigits (lt_of_le_of_lt t.date.year_mem.2 (by decide))
  have hmonth : number? (fixedDigits 10 2 t.date.month) = some t.date.month :=
    number?_fixedDigits (lt_of_le_of_lt t.date.month_mem.2 (by decide))
  have hday : number? (fixedDigits 10 2 t.date.day) = some t.date.day :=
    number?_fixedDigits (lt_of_le_of_lt t.date.day_le (by decide))
  have hsized : (fieldsOf t.date clock).Sized :=
    ⟨⟨length_fixedDigits _ _ _, fun _ hc ↦ isDigit_of_mem_fixedDigits hc⟩, isPair_fixedDigits _,
      isPair_fixedDigits _⟩
  refine read_eq_ok_iff_fields.mpr ⟨fieldsOf t.date clock, ?_,
    ofFields_eq_ok_iff.mpr ⟨hyear, hmonth, hday, htime⟩⟩
  refine fields?_eq_some_iff.mpr ⟨hsized, rest, ?_, hclock⟩
  rw [dateChars_eq_toList hsized hyear hmonth hday, hchars]

/-- What is read is a text of the moment that it gives. -/
theorem written_of_read {s : String} {t : Moment} (h : read s = .ok t) : Moment.Written s t := by
  obtain ⟨fields, hfields, ht⟩ := read_eq_ok_iff_fields.mp h
  obtain ⟨hsized, rest, hchars, hclock⟩ := fields?_eq_some_iff.mp hfields
  obtain ⟨hyear, hmonth, hday, htime⟩ := ofFields_eq_ok_iff.mp ht
  rw [dateChars_eq_toList hsized hyear hmonth hday] at hchars
  cases hfield : fields.clock with
  | none =>
    rw [hfield] at hclock htime
    obtain rfl := clockField?_eq_some_none_iff.mp hclock
    rw [List.append_nil] at hchars
    obtain ⟨date, clock, offset⟩ := t
    obtain ⟨rfl, rfl⟩ := Prod.mk.inj (Option.some.inj htime)
    rw [String.toList_inj.mp hchars]
    exact .date date
  | some field =>
    rw [hfield] at hclock htime
    obtain ⟨separator, hseparator, rfl, hparts⟩ := clockField?_eq_some_some_iff.mp hclock
    obtain ⟨hhour, hminute, hsecond, ⟨n, hfraction, hmicrosecond⟩, hzone⟩ :=
      clock?_eq_some_iff.mp htime
    have htext : s = t.date.text ++ String.ofList [separator] ++ t.clock.text ++
        String.ofList (fractionChars field.fraction) ++ String.ofList (ZoneField.chars field.zone) := by
      rw [← String.toList_inj, hchars, ClockField.chars,
        eq_fixedDigits_of_number? hparts.hour.length hhour,
        eq_fixedDigits_of_number? hparts.minute.length hminute,
        eq_fixedDigits_of_number? hparts.second.length hsecond]
      simp [Clock.toList_text]
    rw [htext]
    refine .time ?_ (fraction_written_iff.mpr ⟨_, n, String.toList_ofList, hparts.fraction, hfraction,
      hmicrosecond⟩) (offset_written_iff.mpr ⟨_, String.toList_ofList, hparts.zone, hzone⟩)
    exact hseparator.imp (fun h ↦ by rw [h]) fun h ↦ by rw [h]

/-- Every text of a moment is read as that moment. -/
theorem read_of_written {s : String} {t : Moment} (h : Moment.Written s t) : read s = .ok t := by
  cases h with
  | date d => exact read_of_clockField? (List.append_nil _).symm rfl rfl
  | @time _ separator fraction zone hseparator hfraction hzone =>
    obtain ⟨digits, n, hdigits, hsizedFraction, hnumber, hmicrosecond⟩ :=
      fraction_written_iff.mp hfraction
    obtain ⟨field, hfield, hpaired, hoffset⟩ := offset_written_iff.mp hzone
    obtain ⟨c, hc, hmark⟩ : ∃ c, (c = 'T' ∨ c = ' ') ∧ separator.toList = [c] := by
      rcases hseparator with rfl | rfl
      · exact ⟨'T', .inl rfl, rfl⟩
      · exact ⟨' ', .inr rfl, rfl⟩
    let parts : ClockField := ⟨fixedDigits 10 2 t.clock.hour.val, fixedDigits 10 2 t.clock.minute.val,
      fixedDigits 10 2 t.clock.second.val, digits, field⟩
    have hclock : clockField? (c :: parts.chars) = some (some parts) :=
      clockField?_eq_some_some_iff.mpr ⟨c, hc, rfl, isPair_fixedDigits _, isPair_fixedDigits _,
        isPair_fixedDigits _, hsizedFraction, hpaired⟩
    have htime : time? (some parts) = some (t.clock, t.offset) :=
      clock?_eq_some_iff.mpr ⟨number?_fixedDigits_two (by decide) _,
        number?_fixedDigits_two (by decide) _, number?_fixedDigits_two (by decide) _,
        ⟨n, hnumber, hmicrosecond⟩, hoffset⟩
    refine read_of_clockField? ?_ hclock htime
    simp [parts, ClockField.chars, Clock.toList_text, hmark, hdigits, hfield]

/-- Reading accepts exactly the texts of a moment, and gives that moment. -/
theorem read_eq_ok_iff {s : String} {t : Moment} : read s = .ok t ↔ Moment.Written s t :=
  ⟨written_of_read, read_of_written⟩

end Instant

/-! ## The extended form -/

theorem Clock.fractionWritten_fractionText (c : Clock) :
    FractionWritten c.fractionText c.microsecond.val := by
  unfold fractionText
  by_cases hzero : c.microsecond.val = 0
  · rw [if_pos hzero, hzero]
    exact .absent
  · have hsix : FractionWritten ("." ++ padded 6 c.microsecond.val)
        (c.microsecond.val * 10 ^ (6 - 6)) := .digits (by decide) c.microsecond.isLt
    rw [if_neg hzero]
    simpa using hsix

/-- The text of an offset is one that is read, unless it shows seconds. -/
theorem Offset.written_text {o : Offset} (h : o.wholeMinutes = true) : Written o.text (some o) := by
  obtain ⟨hlower, hupper⟩ := o.mem
  have hwhole : o.microseconds % 60000000 = 0 := of_decide_eq_true h
  have hsize : o.microseconds.natAbs % 60000000 = 0 := by omega
  let hour : Fin 24 := ⟨o.microseconds.natAbs / 3600000000, by omega⟩
  let minute : Fin 60 := ⟨o.microseconds.natAbs / 60000000 % 60, Nat.mod_lt _ (by decide)⟩
  have htext : o.text = o.clockText := by simp [text, secondText, hsize]
  rw [htext, clockText]
  by_cases hminus : o.microseconds < 0
  · simp only [if_pos hminus]
    exact .behind hour minute (by simp only [hour, minute]; omega)
  · simp only [if_neg hminus]
    exact .ahead hour minute (by simp only [hour, minute]; omega)

theorem Offset.count_colon_text {o : Offset} (h : o.wholeMinutes = false) :
    2 ≤ o.text.toList.count ':' := by
  have hseconds : o.microseconds % 60000000 ≠ 0 := of_decide_eq_false h
  have hrest : o.microseconds.natAbs % 60000000 ≠ 0 := by omega
  simp only [text, clockText, secondText, if_neg hrest, String.toList_append, List.count_append]
  have hcolon : ":".toList.count ':' = 1 := rfl
  omega

/-- The extended ISO-8601 form is a text of its moment. -/
theorem Moment.written_isoText {t : Moment} (h : t.wholeMinutes = true) : Written t.isoText t := by
  refine .time (.inl rfl) t.clock.fractionWritten_fractionText ?_
  unfold wholeMinutes at h
  cases hoffset : t.offset with
  | none => exact .absent
  | some o =>
    rw [hoffset] at h
    exact Offset.written_text h

/-- With seconds in its offset, the extended form of a moment has four colons. -/
theorem Moment.count_colon_isoText {t : Moment} (h : t.wholeMinutes = false) :
    4 ≤ t.isoText.toList.count ':' := by
  unfold wholeMinutes at h
  cases hoffset : t.offset with
  | none => simp [hoffset] at h
  | some o =>
    rw [hoffset] at h
    have hzone := Offset.count_colon_text h
    have hclock : 2 ≤ t.clock.text.toList.count ':' := by
      have hcolon : ":".toList.count ':' = 1 := rfl
      simp only [Clock.text, String.toList_append, List.count_append]
      omega
    simp only [isoText, textWith, hoffset, String.toList_append, List.count_append]
    omega

namespace Instant

theorem read_isoText {t : Moment} (h : t.wholeMinutes = true) : read t.isoText = .ok t :=
  read_eq_ok_iff.mpr (Moment.written_isoText h)

/-- The extended form with seconds in the offset does not have the form of an instant. -/
theorem read_isoText_of_seconds {t : Moment} (h : t.wholeMinutes = false) :
    read t.isoText = .error (.form t.isoText) := by
  rw [read]
  cases hfields : fields? t.isoText.toList with
  | none => rfl
  | some fields =>
    have hmost := count_colon_le_of_fields? hfields
    have hleast := Moment.count_colon_isoText h
    omega

theorem read_isoText_eq_ok_iff {t u : Moment} :
    read t.isoText = .ok u ↔ t.wholeMinutes = true ∧ t = u := by
  cases h : t.wholeMinutes with
  | true => simp [read_isoText h]
  | false => simp [read_isoText_of_seconds h]

end Instant

/-- A text denotes a moment exactly when it is one of the texts of that moment.  The extended ISO-8601
form is one of them exactly when the moment has no seconds in its offset. -/
theorem Value.toMoment_text_iff :
    (∀ (s : String) (t : Moment), (Value.text s).toMoment = .ok t ↔ Moment.Written s t) ∧
      ∀ t : Moment, (Value.text t.isoText).toMoment = .ok t ↔ t.wholeMinutes = true := by
  have hread (s : String) : (Value.text s).toMoment = Instant.read s := rfl
  refine ⟨fun s t ↦ ?_, fun t ↦ ?_⟩
  · rw [hread, Instant.read_eq_ok_iff]
  · rw [hread, Instant.read_isoText_eq_ok_iff]
    exact and_iff_left rfl

end EntityCompiler
