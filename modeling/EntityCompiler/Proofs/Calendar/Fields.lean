import EntityCompiler.Proofs.Number.Digits
import EntityCompiler.Proofs.Outcome
import Mathlib.Data.List.TakeWhile

/-!
# Fields of instants

What the two steps of reading an instant do, said without them.  A text is cut into fields exactly when it
consists of their characters, each number with its number of digits; fields denote a moment exactly when
each of them is a numeral in ASCII digits of the part of the moment that it stands for.
-/

namespace EntityCompiler

open Numeral

theorem Date.of?_eq_some_iff {year month day : Nat} {d : Date} :
    Date.of? year month day = some d ↔ year = d.year ∧ month = d.month ∧ day = d.day := by
  constructor
  · intro h
    unfold Date.of? at h
    split_ifs at h
    obtain rfl := Option.some.inj h
    exact ⟨rfl, rfl, rfl⟩
  · rintro ⟨rfl, rfl, rfl⟩
    rw [Date.of?, dif_pos ⟨d.year_mem, d.month_mem, d.day_mem⟩]

/-! ## Cutting into fields -/

namespace Instant

/-- Two digits, of any script. -/
structure IsPair (digits : List Char) : Prop where
  length : digits.length = 2
  digits : ∀ c ∈ digits, Text.isDigit c = true

theorem pair?_eq_some_iff {text digits rest : List Char} :
    pair? text = some (digits, rest) ↔ text = digits ++ rest ∧ IsPair digits := by
  constructor
  · intro h
    match text, h with
    | a :: b :: tail, h =>
      rw [pair?] at h
      split_ifs at h with hdigits
      obtain ⟨rfl, rfl⟩ := Prod.mk.inj (Option.some.inj h)
      exact ⟨rfl, rfl, by simpa using hdigits⟩
  · rintro ⟨rfl, hlength, hdigits⟩
    obtain ⟨a, b, rfl⟩ := List.length_eq_two.mp hlength
    rw [List.cons_append, List.cons_append, List.nil_append, pair?, if_pos (by simpa using hdigits)]

theorem pairAfter?_eq_some_iff {mark : Char} {text digits rest : List Char} :
    pairAfter? mark text = some (digits, rest) ↔ text = mark :: (digits ++ rest) ∧ IsPair digits := by
  cases text with
  | nil => simp [pairAfter?]
  | cons c tail =>
    by_cases hmark : c = mark
    · simp [pairAfter?, hmark, pair?_eq_some_iff]
    · simp [pairAfter?, hmark]

/-- The characters of an offset field. -/
def ZoneField.chars : Option ZoneField → List Char
  | none => []
  | some .zulu => ['Z']
  | some (.signed negative hour minute) =>
    (if negative then '-' else '+') :: (hour ++ ':' :: minute)

/-- Whether hours and minutes of an offset field have two digits each. -/
def ZoneField.Paired : Option ZoneField → Prop
  | some (.signed _ hour minute) => IsPair hour ∧ IsPair minute
  | _ => True

theorem zoneField?_eq_some_iff {text : List Char} {zone : Option ZoneField} :
    zoneField? text = some zone ↔ text = ZoneField.chars zone ∧ ZoneField.Paired zone := by
  constructor
  · intro h
    unfold zoneField? at h
    split at h
    · obtain rfl := Option.some.inj h
      exact ⟨rfl, trivial⟩
    · obtain rfl := Option.some.inj h
      exact ⟨rfl, trivial⟩
    · split_ifs at h with hsign
      simp only [Option.bind_eq_bind, Option.bind_eq_some_iff] at h
      obtain ⟨⟨hour, _⟩, hcutHour, ⟨minute, _⟩, hcutMinute, hend⟩ := h
      split_ifs at hend with hempty
      obtain rfl := Option.some.inj hend
      obtain ⟨rfl, hhour⟩ := pair?_eq_some_iff.mp hcutHour
      obtain ⟨rfl, hminute⟩ := pairAfter?_eq_some_iff.mp hcutMinute
      obtain rfl := List.isEmpty_iff.mp hempty
      refine ⟨?_, hhour, hminute⟩
      rcases hsign with rfl | rfl <;> simp [ZoneField.chars]
  · rintro ⟨rfl, hpaired⟩
    match zone, hpaired with
    | none, _ => rfl
    | some .zulu, _ => rfl
    | some (.signed negative hour minute), ⟨hhour, hminute⟩ =>
      have hcutHour : pair? (hour ++ ':' :: minute) = some (hour, ':' :: minute) :=
        pair?_eq_some_iff.mpr ⟨rfl, hhour⟩
      have hcutMinute : pairAfter? ':' (':' :: minute) = some (minute, []) :=
        pairAfter?_eq_some_iff.mpr ⟨by rw [List.append_nil], hminute⟩
      cases negative <;> simp [ZoneField.chars, zoneField?, hcutHour, hcutMinute]

/-- The characters of a fraction: its digits after a point, unless there are none. -/
def fractionChars : List Char → List Char
  | [] => []
  | digits => '.' :: digits

theorem fractionChars_of_ne_nil {digits : List Char} (h : digits ≠ []) :
    fractionChars digits = '.' :: digits := by
  cases digits with
  | nil => exact absurd rfl h
  | cons c digits => rfl

/-- At most six digits, of any script. -/
structure IsFraction (digits : List Char) : Prop where
  length_le : digits.length ≤ 6
  digits : ∀ c ∈ digits, Text.isDigit c = true

theorem eq_append_of_fractionField? {text digits rest : List Char}
    (h : fractionField? text = some (digits, rest)) :
    text = fractionChars digits ++ rest ∧ IsFraction digits := by
  unfold fractionField? at h
  split at h
  · simp only at h
    split_ifs at h with hlength
    obtain ⟨rfl, rfl⟩ := Prod.mk.inj (Option.some.inj h)
    refine ⟨?_, hlength.2, fun c hc ↦ List.mem_takeWhile_imp hc⟩
    rw [fractionChars_of_ne_nil (List.length_pos_iff.mp hlength.1), List.cons_append,
      List.takeWhile_append_dropWhile]
  · obtain ⟨rfl, rfl⟩ := Prod.mk.inj (Option.some.inj h)
    exact ⟨rfl, by decide, nofun⟩

/-- An offset ends the digits before it and is no fraction. -/
theorem fractionField?_append_chars {digits : List Char} (h : IsFraction digits)
    (zone : Option ZoneField) :
    fractionField? (fractionChars digits ++ ZoneField.chars zone) =
      some (digits, ZoneField.chars zone) := by
  have hsigns : Text.isDigit '-' = false ∧ Text.isDigit '+' = false ∧ Text.isDigit 'Z' = false := by
    decide
  by_cases hempty : digits = []
  · subst hempty
    match zone with
    | none => rfl
    | some .zulu => rfl
    | some (.signed negative hour minute) => cases negative <;> rfl
  · obtain ⟨htake, hdrop⟩ : (ZoneField.chars zone).takeWhile Text.isDigit = [] ∧
        (ZoneField.chars zone).dropWhile Text.isDigit = ZoneField.chars zone := by
      match zone with
      | none => exact ⟨rfl, rfl⟩
      | some .zulu => simp [ZoneField.chars, hsigns]
      | some (.signed negative hour minute) => cases negative <;> simp [ZoneField.chars, hsigns]
    have hlength : 1 ≤ digits.length := List.length_pos_iff.mpr hempty
    rw [fractionChars_of_ne_nil hempty, List.cons_append]
    simp [fractionField?, List.takeWhile_append_of_pos h.digits, List.dropWhile_append_of_pos h.digits,
      htake, hdrop, hlength, h.length_le]

/-- The characters of a time field. -/
def ClockField.chars (field : ClockField) : List Char :=
  field.hour ++ ':' :: (field.minute ++ ':' :: (field.second ++
    (fractionChars field.fraction ++ ZoneField.chars field.zone)))

/-- Whether the parts of a time field have the right numbers of digits. -/
structure ClockField.Sized (field : ClockField) : Prop where
  hour : IsPair field.hour
  minute : IsPair field.minute
  second : IsPair field.second
  fraction : IsFraction field.fraction
  zone : ZoneField.Paired field.zone

theorem clockField?_eq_some_none_iff {text : List Char} :
    clockField? text = some none ↔ text = [] := by
  cases text with
  | nil => simp [clockField?]
  | cons separator tail =>
    rw [clockField?]
    split_ifs <;> simp [Option.bind_eq_some_iff]

theorem clockField?_eq_some_some_iff {text : List Char} {field : ClockField} :
    clockField? text = some (some field) ↔
      ∃ separator, (separator = 'T' ∨ separator = ' ') ∧ text = separator :: field.chars ∧
        field.Sized := by
  constructor
  · intro h
    cases text with
    | nil => cases h
    | cons separator tail =>
      rw [clockField?] at h
      split_ifs at h with hseparator
      simp only [Option.bind_eq_bind, Option.bind_eq_some_iff] at h
      obtain ⟨⟨hour, _⟩, hcutHour, ⟨minute, _⟩, hcutMinute, ⟨second, _⟩, hcutSecond,
        ⟨fraction, _⟩, hcutFraction, zone, hcutZone, hfield⟩ := h
      obtain rfl := Option.some.inj (Option.some.inj hfield)
      obtain ⟨rfl, hhour⟩ := pair?_eq_some_iff.mp hcutHour
      obtain ⟨rfl, hminute⟩ := pairAfter?_eq_some_iff.mp hcutMinute
      obtain ⟨rfl, hsecond⟩ := pairAfter?_eq_some_iff.mp hcutSecond
      obtain ⟨rfl, hfraction⟩ := eq_append_of_fractionField? hcutFraction
      obtain ⟨rfl, hzone⟩ := zoneField?_eq_some_iff.mp hcutZone
      exact ⟨separator, hseparator, rfl, ⟨hhour, hminute, hsecond, hfraction, hzone⟩⟩
  · rintro ⟨separator, hseparator, rfl, hsized⟩
    have hhour (rest : List Char) : pair? (field.hour ++ rest) = some (field.hour, rest) :=
      pair?_eq_some_iff.mpr ⟨rfl, hsized.hour⟩
    have hafter {digits : List Char} (h : IsPair digits) (rest : List Char) :
        pairAfter? ':' (':' :: (digits ++ rest)) = some (digits, rest) :=
      pairAfter?_eq_some_iff.mpr ⟨rfl, h⟩
    have hfraction := fractionField?_append_chars hsized.fraction field.zone
    have hzone := zoneField?_eq_some_iff.mpr ⟨rfl, hsized.zone⟩
    rw [clockField?, if_pos hseparator]
    simp [ClockField.chars, hhour, hafter hsized.minute, hafter hsized.second, hfraction, hzone]

/-- The characters of the date of a text. -/
def Fields.dateChars (fields : Fields) : List Char :=
  fields.year ++ '-' :: (fields.month ++ '-' :: fields.day)

/-- Whether the parts of a date have the right numbers of digits. -/
structure Fields.Sized (fields : Fields) : Prop where
  year : fields.year.length = 4 ∧ ∀ c ∈ fields.year, Text.isDigit c = true
  month : IsPair fields.month
  day : IsPair fields.day

/-- A text is cut into fields if it is a date, or a date and a time with a separator between them. -/
theorem fields?_eq_some_iff {text : List Char} {fields : Fields} :
    fields? text = some fields ↔ fields.Sized ∧ ∃ rest, text = fields.dateChars ++ rest ∧
      clockField? rest = some fields.clock := by
  constructor
  · intro h
    simp only [fields?, Option.bind_eq_bind, Option.bind_eq_some_iff] at h
    obtain ⟨⟨century, _⟩, hcutCentury, ⟨year, _⟩, hcutYear, ⟨month, _⟩, hcutMonth, ⟨day, rest⟩,
      hcutDay, clock, hclock, hfields⟩ := h
    obtain rfl := Option.some.inj hfields
    obtain ⟨rfl, hcentury⟩ := pair?_eq_some_iff.mp hcutCentury
    obtain ⟨rfl, hyear⟩ := pair?_eq_some_iff.mp hcutYear
    obtain ⟨rfl, hmonth⟩ := pairAfter?_eq_some_iff.mp hcutMonth
    obtain ⟨rfl, hday⟩ := pairAfter?_eq_some_iff.mp hcutDay
    refine ⟨⟨⟨?_, fun c hc ↦ ?_⟩, hmonth, hday⟩, rest, ?_, hclock⟩
    · rw [List.length_append, hcentury.length, hyear.length]
    · exact (List.mem_append.mp hc).elim (hcentury.digits c) (hyear.digits c)
    · simp [Fields.dateChars]
  · obtain ⟨digits, month, day, clock⟩ := fields
    rintro ⟨⟨⟨hlength, hdigits⟩, hmonth, hday⟩, rest, rfl, hclock⟩
    obtain ⟨century, year, rfl, hcentury, hyear⟩ :
        ∃ century year, digits = century ++ year ∧ IsPair century ∧ IsPair year := by
      refine ⟨digits.take 2, digits.drop 2, (List.take_append_drop 2 digits).symm,
        ⟨by rw [List.length_take, hlength]; rfl, fun c hc ↦ hdigits c (List.mem_of_mem_take hc)⟩,
        by rw [List.length_drop, hlength], fun c hc ↦ hdigits c (List.mem_of_mem_drop hc)⟩
    have hpair {digits : List Char} (h : IsPair digits) (rest : List Char) :
        pair? (digits ++ rest) = some (digits, rest) := pair?_eq_some_iff.mpr ⟨rfl, h⟩
    have hafter {digits : List Char} (h : IsPair digits) (rest : List Char) :
        pairAfter? '-' ('-' :: (digits ++ rest)) = some (digits, rest) :=
      pairAfter?_eq_some_iff.mpr ⟨rfl, h⟩
    simp [fields?, Fields.dateChars, hpair hcentury, hpair hyear, hafter hmonth, hafter hday, hclock]

/-! ## Colons -/

theorem count_colon_of_digits {digits : List Char} (h : ∀ c ∈ digits, Text.isDigit c = true) :
    digits.count ':' = 0 :=
  List.count_eq_zero.mpr fun hmem ↦ absurd (h ':' hmem) (by decide)

theorem count_colon_fractionChars {digits : List Char} (h : IsFraction digits) :
    (fractionChars digits).count ':' = 0 := by
  cases digits with
  | nil => rfl
  | cons c digits => simpa [fractionChars] using count_colon_of_digits h.digits

theorem count_colon_chars_zone {zone : Option ZoneField} (h : ZoneField.Paired zone) :
    (ZoneField.chars zone).count ':' ≤ 1 := by
  match zone, h with
  | none, _ => exact Nat.zero_le 1
  | some .zulu, _ => exact Nat.zero_le 1
  | some (.signed negative hour minute), ⟨hhour, hminute⟩ =>
    have hhourColons := count_colon_of_digits hhour.digits
    have hminuteColons := count_colon_of_digits hminute.digits
    cases negative <;> simp [ZoneField.chars, hhourColons, hminuteColons]

/-- A text that is cut into fields has two colons in its time and one in its offset, at most. -/
theorem count_colon_le_of_fields? {text : List Char} {fields : Fields}
    (h : fields? text = some fields) : text.count ':' ≤ 3 := by
  obtain ⟨hsized, rest, rfl, hclock⟩ := fields?_eq_some_iff.mp h
  have hdate : fields.dateChars.count ':' = 0 := by
    simp [Fields.dateChars, count_colon_of_digits hsized.year.2,
      count_colon_of_digits hsized.month.digits, count_colon_of_digits hsized.day.digits]
  rw [List.count_append, hdate, Nat.zero_add]
  cases hfield : fields.clock with
  | none =>
    rw [hfield] at hclock
    rw [clockField?_eq_some_none_iff.mp hclock]
    exact Nat.zero_le 3
  | some field =>
    rw [hfield] at hclock
    obtain ⟨separator, hseparator, rfl, hparts⟩ := clockField?_eq_some_some_iff.mp hclock
    have hmark : separator ≠ ':' := by rcases hseparator with rfl | rfl <;> decide
    have hzone := count_colon_chars_zone hparts.zone
    simp only [ClockField.chars, List.count_append, List.count_cons, beq_iff_eq, hmark, if_false,
      if_true, count_colon_of_digits hparts.hour.digits, count_colon_of_digits hparts.minute.digits,
      count_colon_of_digits hparts.second.digits, count_colon_fractionChars hparts.fraction]
    omega

/-! ## Reading the fields -/

theorem numberBelow?_eq_some_iff {bound : Nat} {digits : List Char} {n : Fin bound} :
    numberBelow? bound digits = some n ↔ number? digits = some n.val := by
  rw [numberBelow?]
  cases hnumber : number? digits with
  | none => simp
  | some m =>
    by_cases hm : m < bound
    · simp [hm, Fin.ext_iff]
    · have hne : m ≠ n.val := fun h ↦ hm (h ▸ n.isLt)
      simp [hm, hne]

/-- The time of day and the offset denoted by fields. -/
def time? : Option ClockField → Option (Clock × Option Offset)
  | none => some (Clock.midnight, none)
  | some field => clock? field

/-- The date and time denoted by fields, said for each field on its own. -/
theorem ofFields_eq_ok_iff {fields : Fields} {t : Moment} :
    ofFields fields = .ok t ↔ number? fields.year = some t.date.year ∧
      number? fields.month = some t.date.month ∧ number? fields.day = some t.date.day ∧
        time? fields.clock = some (t.clock, t.offset) := by
  unfold ofFields
  cases hyear : number? fields.year with
  | none => simp
  | some year =>
    cases hmonth : number? fields.month with
    | none => simp
    | some month =>
      cases hday : number? fields.day with
      | none => simp
      | some day =>
        simp only [Option.some.injEq]
        by_cases hmonthRange : month = 0 ∨ 12 < month
        · have hmem := t.date.month_mem
          rw [if_pos hmonthRange]
          exact iff_of_false (fun h ↦ by cases h) fun h ↦ by omega
        rw [if_neg hmonthRange]
        by_cases hdayRange : day = 0 ∨ daysInMonth year month < day
        · have hmem := t.date.day_mem
          rw [if_pos hdayRange]
          refine iff_of_false (fun h ↦ by cases h) ?_
          rintro ⟨rfl, rfl, rfl, -⟩
          omega
        rw [if_neg hdayRange]
        rw [← and_assoc, ← and_assoc, and_assoc (a := year = t.date.year), ← Date.of?_eq_some_iff]
        obtain ⟨date, clock, offset⟩ := t
        generalize Date.of? year month day = found
        cases fields.clock with
        | none => cases found <;> simp [time?, bind_eq_ok_iff]
        | some field =>
          dsimp only [time?]
          cases clock? field with
          | none => exact iff_of_false (fun h ↦ by cases h) (by simp)
          | some result => cases found <;> simp [bind_eq_ok_iff, Prod.ext_iff]

/-- The offset denoted by an offset field, none for a text without one. -/
def zone? : Option ZoneField → Option (Option Offset)
  | none => some none
  | some zone => (offset? zone).map some

/-- The time and the offset denoted by a time field, said for each part on its own. -/
theorem clock?_eq_some_iff {field : ClockField} {clock : Clock} {offset : Option Offset} :
    clock? field = some (clock, offset) ↔ number? field.hour = some clock.hour.val ∧
      number? field.minute = some clock.minute.val ∧ number? field.second = some clock.second.val ∧
        (∃ n, number? field.fraction = some n ∧
          n * 10 ^ (6 - field.fraction.length) = clock.microsecond.val) ∧
        zone? field.zone = some offset := by
  have hzone : clock? field = (numberBelow? 24 field.hour).bind fun hour ↦
      (numberBelow? 60 field.minute).bind fun minute ↦
        (numberBelow? 60 field.second).bind fun second ↦
          (numberBelow? 1000000 (field.fraction ++
            List.replicate (6 - field.fraction.length) '0')).bind fun microsecond ↦
              (zone? field.zone).map fun offset ↦ (⟨hour, minute, second, microsecond⟩, offset) := by
    unfold clock? zone?
    cases field.zone <;> simp [Option.map_eq_bind]
  obtain ⟨hour, minute, second, microsecond⟩ := clock
  rw [hzone]
  simp only [Option.bind_eq_some_iff, Option.map_eq_some_iff, numberBelow?_eq_some_iff,
    number?_append_zeros, Prod.mk.injEq, Clock.mk.injEq]
  constructor
  · rintro ⟨_, hhour, _, hminute, _, hsecond, _, hfraction, _, hoffset, ⟨rfl, rfl, rfl, rfl⟩, rfl⟩
    exact ⟨hhour, hminute, hsecond, hfraction, hoffset⟩
  · rintro ⟨hhour, hminute, hsecond, hfraction, hoffset⟩
    exact ⟨_, hhour, _, hminute, _, hsecond, _, hfraction, _, hoffset, ⟨rfl, rfl, rfl, rfl⟩, rfl⟩

theorem zone?_signed_eq_some_iff {negative : Bool} {hour minute : List Char} {offset : Option Offset} :
    zone? (some (.signed negative hour minute)) = some offset ↔
      ∃ (h : Fin 24) (m : Fin 60) (o : Offset), number? hour = some h.val ∧
        number? minute = some m.val ∧ offset = some o ∧
          o.microseconds = if negative then -(60000000 * (60 * h.val + m.val) : Int)
            else 60000000 * (60 * h.val + m.val) := by
  simp only [zone?, offset?, Option.map_eq_some_iff, Option.bind_eq_bind, Option.bind_eq_some_iff,
    numberBelow?_eq_some_iff]
  constructor
  · rintro ⟨o, ⟨h, hhour, m, hminute, ho⟩, rfl⟩
    refine ⟨h, m, o, hhour, hminute, rfl, ?_⟩
    cases negative <;> exact congrArg Offset.microseconds (Option.some.inj ho).symm
  · rintro ⟨h, m, ⟨microseconds, hmem⟩, hhour, hminute, rfl, rfl⟩
    exact ⟨_, ⟨h, hhour, m, hminute, by cases negative <;> rfl⟩, rfl⟩

end Instant

end EntityCompiler
