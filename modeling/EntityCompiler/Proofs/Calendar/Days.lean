import EntityCompiler.Proofs.Calendar.Universal

/-!
# Counting days

The number of a day determines the day, and the next day has the next number.  So a moment is determined
by its offset and by its microseconds on the calendar's own clock, and moving it to universal time gives
the one moment there that is the same instant.
-/

namespace EntityCompiler

/-! ## Blocks -/

/-- Blocks of given sizes that are numbered from one and lie one directly after the other. -/
def Consecutive (start size : Nat → Nat) : Prop :=
  ∀ block, 1 ≤ block → start (block + 1) = start block + size block

namespace Consecutive

variable {start size : Nat → Nat} {block other place place' : Nat}

/-- A block ends before any later one starts. -/
theorem end_le (h : Consecutive start size) (hblock : 1 ≤ block) (hlt : block < other) :
    start block + size block ≤ start other := by
  induction other, hlt using Nat.le_induction with
  | base => exact (h block hblock).ge
  | succ other hle ih =>
    have hother : 1 ≤ other := hblock.trans (Nat.le_of_succ_le hle)
    calc
      start block + size block ≤ start other := ih
      _ ≤ start other + size other := Nat.le_add_right _ _
      _ = start (other + 1) := (h other hother).symm

/-- The block and the place in it are determined by the number of places up to there. -/
theorem eq_of_add_eq (h : Consecutive start size) (hblock : 1 ≤ block) (hother : 1 ≤ other)
    (hplace : 1 ≤ place ∧ place ≤ size block) (hplace' : 1 ≤ place' ∧ place' ≤ size other)
    (heq : start block + place = start other + place') : block = other ∧ place = place' := by
  rcases lt_trichotomy block other with hlt | rfl | hlt
  · have hle := h.end_le hblock hlt
    omega
  · exact ⟨rfl, Nat.add_left_cancel heq⟩
  · have hle := h.end_le hother hlt
    omega

end Consecutive

namespace Date

/-! ## Months and years -/

/-- The number of days of a year. -/
def daysInYear (year : Nat) : Nat :=
  if isLeapYear year then 366 else 365

/-- The number of a day in its year. -/
def yearDay (d : Date) : Nat :=
  daysBeforeMonth d.year d.month + d.day

theorem dayNumber_eq (d : Date) : d.dayNumber = daysBeforeYear d.year + d.yearDay :=
  Nat.add_assoc _ _ _

theorem consecutive_months (year : Nat) :
    Consecutive (daysBeforeMonth year) (daysInMonth year) := by
  intro month hmonth
  obtain ⟨before, rfl⟩ := Nat.exists_eq_add_of_le' hmonth
  simp [daysBeforeMonth, List.range_succ]

/-- A quotient grows at the multiples of its divisor: the years have an extra day where the fourth, but not
where the hundredth unless the four hundredth is complete. -/
theorem consecutive_years : Consecutive daysBeforeYear daysInYear := by
  intro year hyear
  obtain ⟨before, rfl⟩ := Nat.exists_eq_add_of_le' hyear
  have hleap : isLeapYear (before + 1) = true ↔
      4 ∣ before + 1 ∧ (¬100 ∣ before + 1 ∨ 400 ∣ before + 1) := by
    simp [isLeapYear, Nat.dvd_iff_mod_eq_zero]
  have hhundred : 100 ∣ before + 1 → 4 ∣ before + 1 := (by decide : 4 ∣ 100).trans
  have hfourHundred : 400 ∣ before + 1 → 100 ∣ before + 1 := (by decide : 100 ∣ 400).trans
  have hle : before / 100 ≤ before / 4 := Nat.div_le_div_left (by decide) (by decide)
  simp only [daysBeforeYear, daysInYear, hleap, Nat.add_sub_cancel, Nat.succ_div]
  generalize before / 4 = fourths at hle
  generalize before / 100 = hundredths at hle
  split_ifs <;> omega

/-- A year consists of its months. -/
theorem daysBeforeMonth_thirteen (year : Nat) : daysBeforeMonth year 13 = daysInYear year := by
  have hfebruary : daysInMonth year 2 = if isLeapYear year then 29 else 28 := rfl
  have hmonths : daysBeforeMonth year 13 = 31 + daysInMonth year 2 + 306 := by
    simp [daysBeforeMonth, List.range_succ, daysInMonth]
  rw [hmonths, hfebruary, daysInYear]
  split_ifs <;> rfl

theorem yearDay_mem (d : Date) : 1 ≤ d.yearDay ∧ d.yearDay ≤ daysInYear d.year := by
  obtain ⟨hmonth, hday⟩ := And.intro d.month_mem d.day_mem
  have hyear := (consecutive_months d.year).end_le hmonth.1 (Nat.lt_succ_of_le hmonth.2)
  rw [daysBeforeMonth_thirteen] at hyear
  unfold yearDay
  omega

/-! ## Numbers of days -/

theorem dayNumber_injective {d e : Date} (h : d.dayNumber = e.dayNumber) : d = e := by
  rw [dayNumber_eq, dayNumber_eq] at h
  obtain ⟨hyear, hplace⟩ :=
    consecutive_years.eq_of_add_eq d.year_mem.1 e.year_mem.1 d.yearDay_mem e.yearDay_mem h
  obtain ⟨year, month, day, hyearMem, hmonthMem, hdayMem⟩ := d
  obtain ⟨_, month', day', _, hmonthMem', hdayMem'⟩ := e
  obtain rfl : year = _ := hyear
  obtain ⟨rfl, rfl⟩ : month = month' ∧ day = day' :=
    (consecutive_months year).eq_of_add_eq hmonthMem.1 hmonthMem'.1 hdayMem hdayMem' hplace
  rfl

/-- The last day of a year is the last one of December. -/
theorem yearDay_of_december {d : Date} (hmonth : d.month = 12) (hday : d.day = 31) :
    d.yearDay = daysInYear d.year := by
  have hmonths : daysBeforeMonth d.year 13 = daysBeforeMonth d.year 12 + 31 :=
    consecutive_months d.year 12 (by decide)
  rw [yearDay, hmonth, hday, ← hmonths, daysBeforeMonth_thirteen]

theorem eq_of_of? {year month day : Nat} {d : Date} (h : of? year month day = some d) :
    d.year = year ∧ d.month = month ∧ d.day = day := by
  unfold of? at h
  split_ifs at h
  obtain rfl := Option.some.inj h
  exact ⟨rfl, rfl, rfl⟩

/-- The next day has the next number. -/
theorem dayNumber_next? {d next : Date} (h : d.next? = some next) :
    next.dayNumber = d.dayNumber + 1 := by
  have hmonth := consecutive_months d.year d.month d.month_mem.1
  have hyear := consecutive_years d.year d.year_mem.1
  obtain ⟨hmonthMem, hdayMem⟩ := And.intro d.month_mem d.day_mem
  unfold next? at h
  rw [dayNumber_eq, dayNumber_eq]
  split_ifs at h with hinner houter
  · obtain ⟨hyear', hmonth', hday'⟩ := eq_of_of? h
    rw [yearDay, yearDay, hyear', hmonth', hday']
    rfl
  · obtain ⟨hyear', hmonth', hday'⟩ := eq_of_of? h
    rw [yearDay, yearDay, hyear', hmonth', hday', hmonth]
    omega
  · obtain ⟨hyear', hmonth', hday'⟩ := eq_of_of? h
    have hdecember : d.month = 12 := by omega
    have hlength : daysInMonth d.year d.month = 31 := by
      rw [hdecember]
      rfl
    have hlast := yearDay_of_december hdecember (by omega)
    have hfirst : next.yearDay = 1 := by
      rw [yearDay, hmonth', hday']
      rfl
    rw [hyear', hyear, hfirst, hlast]

/-- The day before has the number before. -/
theorem dayNumber_previous? {d previous : Date} (h : d.previous? = some previous) :
    previous.dayNumber + 1 = d.dayNumber := by
  obtain ⟨hyearMem, hmonthMem, hdayMem⟩ := And.intro d.year_mem (And.intro d.month_mem d.day_mem)
  unfold previous? at h
  rw [dayNumber_eq, dayNumber_eq]
  split_ifs at h with hinner houter
  · obtain ⟨hyear', hmonth', hday'⟩ := eq_of_of? h
    rw [yearDay, yearDay, hyear', hmonth', hday']
    omega
  · obtain ⟨hyear', hmonth', hday'⟩ := eq_of_of? h
    have hmonth := consecutive_months d.year (d.month - 1) (by omega)
    rw [Nat.sub_add_cancel hmonthMem.1] at hmonth
    rw [yearDay, yearDay, hyear', hmonth', hday', hmonth]
    omega
  · obtain ⟨hyear', hmonth', hday'⟩ := eq_of_of? h
    have hyear := consecutive_years previous.year previous.year_mem.1
    have hlast := yearDay_of_december hmonth' hday'
    have hfirst : d.yearDay = 1 := by
      have hmonth : d.month = 1 := by omega
      have hday : d.day = 1 := by omega
      rw [yearDay, hmonth, hday]
      rfl
    have hnext : previous.year + 1 = d.year := by
      have := previous.year_mem
      omega
    rw [hlast, hfirst, ← hnext, hyear]

theorem dayNumber_of_isFirst {d : Date} (h : d.IsFirst) : d.dayNumber = 1 := by
  obtain ⟨hyear, hmonth, hday⟩ := h
  rw [dayNumber, hyear, hmonth, hday]
  rfl

theorem one_le_dayNumber (d : Date) : 1 ≤ d.dayNumber := by
  have := d.yearDay_mem
  rw [dayNumber_eq]
  omega

/-- No day has a higher number than the last one. -/
theorem dayNumber_le_of_isLast {d : Date} (h : d.IsLast) (e : Date) : e.dayNumber ≤ d.dayNumber := by
  obtain ⟨hyear, hmonth, hday⟩ := h
  have hend : daysBeforeYear e.year + daysInYear e.year ≤ daysBeforeYear 10000 :=
    consecutive_years.end_le e.year_mem.1 (Nat.lt_succ_of_le e.year_mem.2)
  have hall : daysBeforeYear 10000 = daysBeforeYear d.year + daysInYear d.year := by
    rw [hyear]
    exact consecutive_years 9999 (by decide)
  calc
    e.dayNumber = daysBeforeYear e.year + e.yearDay := e.dayNumber_eq
    _ ≤ daysBeforeYear e.year + daysInYear e.year := Nat.add_le_add_left e.yearDay_mem.2 _
    _ ≤ daysBeforeYear d.year + daysInYear d.year := hend.trans hall.le
    _ = d.dayNumber := by rw [dayNumber_eq, yearDay_of_december hmonth hday]

end Date

namespace Clock

theorem microseconds_lt (c : Clock) : c.microseconds < 86400000000 := by
  obtain ⟨hhour, hminute⟩ := And.intro c.hour.isLt c.minute.isLt
  obtain ⟨hsecond, hmicrosecond⟩ := And.intro c.second.isLt c.microsecond.isLt
  unfold microseconds
  omega

theorem microseconds_ofMicroseconds {n : Nat} (h : n < 86400000000) :
    (ofMicroseconds n).microseconds = n := by
  have hhour : n / 3600000000 % 24 = n / 3600000000 := Nat.mod_eq_of_lt (by omega)
  simp only [ofMicroseconds, microseconds, Fin.val_ofNat, hhour]
  omega

end Clock

namespace Moment

/-! ## Universal time -/

/-- Whether a moment is the same instant as another one and in universal time.  A local moment is taken as
it is. -/
def InUniversalTime (t u : Moment) : Prop :=
  match t.offset with
  | none => u = t
  | some _ => u.offset = some Offset.utc ∧ u.microseconds = t.microseconds

theorem inUniversalTime_of_isSome {t u : Moment} (hoffset : t.offset.isSome)
    (h : t.InUniversalTime u) : u.offset = some Offset.utc ∧ u.microseconds = t.microseconds := by
  obtain ⟨o, ho⟩ := Option.isSome_iff_exists.mp hoffset
  simpa only [InUniversalTime, ho] using h

theorem microseconds_of_offset {t : Moment} {o : Offset} (h : t.offset = some o) :
    t.microseconds = 86400000000 * t.date.dayNumber + t.clock.microseconds - o.microseconds := by
  simp only [microseconds, h]

/-- A moment is determined by its offset and its microseconds. -/
theorem eq_of_microseconds {s t : Moment} (hoffset : s.offset = t.offset)
    (h : s.microseconds = t.microseconds) : s = t := by
  obtain ⟨date, ⟨hour, minute, second, microsecond⟩, offset⟩ := s
  obtain ⟨date', ⟨hour', minute', second', microsecond'⟩, offset'⟩ := t
  obtain rfl : offset = offset' := hoffset
  obtain ⟨hhour, hminute, hsecond, hmicrosecond⟩ :=
    And.intro hour.isLt (And.intro minute.isLt (And.intro second.isLt microsecond.isLt))
  obtain ⟨hhour', hminute', hsecond', hmicrosecond'⟩ :=
    And.intro hour'.isLt (And.intro minute'.isLt (And.intro second'.isLt microsecond'.isLt))
  simp only [microseconds, Clock.microseconds] at h
  generalize hday : date.dayNumber = day at h
  generalize hday' : date'.dayNumber = day' at h
  have hfields : day = day' ∧ hour.val = hour'.val ∧ minute.val = minute'.val ∧
      second.val = second'.val ∧ microsecond.val = microsecond'.val := by
    cases offset <;> simp only at h <;> omega
  obtain ⟨rfl, hhour, hminute, hsecond, hmicrosecond⟩ := hfields
  obtain rfl := Date.dayNumber_injective (hday.trans hday'.symm)
  rw [Fin.ext hhour, Fin.ext hminute, Fin.ext hsecond, Fin.ext hmicrosecond]

/-- Where an offset carries to the next day or borrows from the day before, the instant stays the same. -/
theorem inUniversalTime_of_toUtc? {t u : Moment} (h : t.toUtc? = some u) : t.InUniversalTime u := by
  unfold toUtc? at h
  unfold InUniversalTime
  cases hoffset : t.offset with
  | none =>
    rw [hoffset] at h
    exact (Option.some.inj h).symm
  | some o =>
    simp only [hoffset, Option.map_eq_some_iff] at h
    obtain ⟨date, hdate, rfl⟩ := h
    obtain ⟨hclock, hlower, hupper⟩ := And.intro t.clock.microseconds_lt o.mem
    set time : Int := t.clock.microseconds - o.microseconds with htime
    have hday : (date.dayNumber : Int) = t.date.dayNumber + time / 86400000000 := by
      split_ifs at hdate with hbefore hafter
      · have := Date.dayNumber_previous? hdate
        omega
      · have := Date.dayNumber_next? hdate
        omega
      · rw [Option.some.inj hdate]
        omega
    have hremainder : (time % 86400000000).toNat < 86400000000 := by omega
    have hplace := Clock.microseconds_ofMicroseconds hremainder
    refine ⟨rfl, ?_⟩
    rw [microseconds_of_offset hoffset, microseconds_of_offset rfl, hplace, hday]
    simp only [Offset.utc]
    omega

/-- The calendar of universal time has all instants but those of moments that leave it. -/
theorem not_leavesCalendar_of_inUniversalTime {t u : Moment} (h : t.InUniversalTime u) :
    ¬t.LeavesCalendar := by
  rintro ⟨o, hoffset, hleaves⟩
  simp only [InUniversalTime, hoffset] at h
  obtain ⟨hutc, hsame⟩ := h
  rw [microseconds_of_offset hoffset, microseconds_of_offset hutc] at hsame
  obtain ⟨hclock, hclock'⟩ := And.intro t.clock.microseconds_lt u.clock.microseconds_lt
  have hzero : Offset.utc.microseconds = 0 := rfl
  rcases hleaves with ⟨hfirst, hbefore⟩ | ⟨hlast, hafter⟩
  · have := Date.dayNumber_of_isFirst hfirst
    have := u.date.one_le_dayNumber
    omega
  · have := Date.dayNumber_le_of_isLast hlast u.date
    omega

/-- Moving a moment to universal time gives the one moment there that is the same instant. -/
theorem toUtc?_eq_some_iff {t u : Moment} : t.toUtc? = some u ↔ t.InUniversalTime u := by
  refine ⟨inUniversalTime_of_toUtc?, fun h ↦ ?_⟩
  cases hutc : t.toUtc? with
  | none => exact absurd (toUtc?_eq_none_iff.mp hutc) (not_leavesCalendar_of_inUniversalTime h)
  | some other =>
    have hother := inUniversalTime_of_toUtc? hutc
    unfold InUniversalTime at h hother
    cases hoffset : t.offset with
    | none =>
      rw [hoffset] at h hother
      exact congrArg some (hother.trans h.symm)
    | some o =>
      rw [hoffset] at h hother
      exact congrArg some
        (eq_of_microseconds (hother.1.trans h.1.symm) (hother.2.trans h.2.symm))

end Moment

end EntityCompiler
