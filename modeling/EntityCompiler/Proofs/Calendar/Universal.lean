import Mathlib.Tactic
import EntityCompiler.Calendar.Moment

/-!
# Moments in universal time

The calendar has a first and a last day, so a moment may have no counterpart in universal time.  Only
moments of these two days are affected, and only with an offset that moves them over the edge.
-/

namespace EntityCompiler

namespace Date

theorem daysInMonth_pos (year month : Nat) : 1 ≤ daysInMonth year month := by
  unfold daysInMonth
  split_ifs <;> omega

theorem of?_eq_none_iff {year month day : Nat} : of? year month day = none ↔
    ¬((1 ≤ year ∧ year ≤ 9999) ∧ (1 ≤ month ∧ month ≤ 12) ∧
      (1 ≤ day ∧ day ≤ daysInMonth year month)) := by
  unfold of?
  split_ifs with h <;> simp [h]

/-- Whether a day is the first one of the calendar. -/
def IsFirst (d : Date) : Prop :=
  d.year = 1 ∧ d.month = 1 ∧ d.day = 1

/-- Whether a day is the last one of the calendar. -/
def IsLast (d : Date) : Prop :=
  d.year = 9999 ∧ d.month = 12 ∧ d.day = 31

/-- Only the first day has no day before it. -/
theorem previous?_eq_none_iff {d : Date} : d.previous? = none ↔ d.IsFirst := by
  obtain ⟨hyear, hmonth, hday⟩ := And.intro d.year_mem (And.intro d.month_mem d.day_mem)
  have hlast : daysInMonth (d.year - 1) 12 = 31 := rfl
  unfold previous? IsFirst
  split_ifs with hinner houter
  · rw [of?_eq_none_iff]
    omega
  · have hpos := daysInMonth_pos d.year (d.month - 1)
    rw [of?_eq_none_iff]
    omega
  · rw [of?_eq_none_iff, hlast]
    omega

/-- Only the last day has no day after it. -/
theorem next?_eq_none_iff {d : Date} : d.next? = none ↔ d.IsLast := by
  obtain ⟨hyear, hmonth, hday⟩ := And.intro d.year_mem (And.intro d.month_mem d.day_mem)
  have hdecember : d.month = 12 → daysInMonth d.year d.month = 31 := by
    intro h
    rw [h]
    rfl
  unfold next? IsLast
  split_ifs with hinner houter
  · rw [of?_eq_none_iff]
    omega
  · have hpos := daysInMonth_pos d.year (d.month + 1)
    rw [of?_eq_none_iff]
    omega
  · have hpos := daysInMonth_pos (d.year + 1) 1
    rw [of?_eq_none_iff]
    omega

end Date

namespace Moment

/-- Whether the offset of a moment moves it out of the calendar: to the day before the first one, or to
the day after the last one. -/
def LeavesCalendar (t : Moment) : Prop :=
  ∃ o, t.offset = some o ∧
    ((t.date.IsFirst ∧ t.clock.microseconds < o.microseconds) ∨
      (t.date.IsLast ∧ 86400000000 + o.microseconds ≤ t.clock.microseconds))

/-- A moment has a counterpart in universal time unless it leaves the calendar. -/
theorem toUtc?_eq_none_iff {t : Moment} : t.toUtc? = none ↔ t.LeavesCalendar := by
  unfold toUtc? LeavesCalendar
  cases hoffset : t.offset with
  | none => simp
  | some o =>
    simp only [Option.map_eq_none_iff, Option.some.injEq, exists_eq_left']
    split_ifs with hbefore hafter
    · rw [Date.previous?_eq_none_iff]
      have hlast : ¬(86400000000 + o.microseconds ≤ t.clock.microseconds) := by omega
      have hfirst : (t.clock.microseconds : Int) < o.microseconds := by omega
      simp [hlast, hfirst]
    · rw [Date.next?_eq_none_iff]
      have hlast : 86400000000 + o.microseconds ≤ t.clock.microseconds := by omega
      have hfirst : ¬(t.clock.microseconds : Int) < o.microseconds := by omega
      simp [hlast, hfirst]
    · have hlast : ¬(86400000000 + o.microseconds ≤ t.clock.microseconds) := by omega
      have hfirst : ¬(t.clock.microseconds : Int) < o.microseconds := by omega
      simp [hlast, hfirst]

end Moment

end EntityCompiler
