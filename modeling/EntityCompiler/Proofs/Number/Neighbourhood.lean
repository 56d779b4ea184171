import EntityCompiler.Number.Binary64
import Mathlib.Tactic
import Mathlib.Data.Rat.Lemmas

/-!
# Neighbourhoods of finite numbers

The decimal numbers that round to a finite number form an interval.  The intervals of neighbouring
numbers share an end, and only the one with the even significand contains it; all others are apart.  A
decimal number therefore lies in the neighbourhood of one magnitude at most.  In the other direction,
one of the multiples of a power of ten with at most seventeen digits always lies in the neighbourhood,
so the search for the shortest decimal succeeds.
-/

namespace EntityCompiler.Finite64

/-! ## Exact values -/

/-- The number without its sign. -/
def magnitude (x : Finite64) : ℚ :=
  x.significand * 2 ^ x.scale

/-- The value of a decimal number. -/
def Decimal.value (d : Decimal) : ℚ :=
  d.digits * 10 ^ d.exponent

theorem power_den_pos {base : Nat} (hbase : 0 < base) (e : Int) : 0 < (power base e).2 := by
  unfold power
  split_ifs
  · exact Nat.pow_pos hbase
  · exact Nat.one_pos

theorem power_num_pos {base : Nat} (hbase : 0 < base) (e : Int) : 0 < (power base e).1 := by
  unfold power
  split_ifs
  · exact Nat.one_pos
  · exact Nat.pow_pos hbase

theorem power_ratio (base : Nat) (e : Int) :
    ((power base e).1 : ℚ) / (power base e).2 = (base : ℚ) ^ e := by
  unfold power
  simp only [Nat.pow_eq]
  split_ifs with he
  · have hneg : e = -(e.natAbs : Int) := by omega
    rw [hneg, zpow_neg, zpow_natCast, Int.natAbs_neg, Int.natAbs_natCast]
    push_cast
    rw [one_div]
  · have hpos : e = (e.toNat : Int) := by omega
    rw [hpos, zpow_natCast, Int.toNat_natCast]
    push_cast
    rw [div_one]

theorem power_two_ratio (e : Int) : ((power 2 e).1 : ℚ) / (power 2 e).2 = 2 ^ e := by
  simpa using power_ratio 2 e

theorem power_ten_ratio (e : Int) : ((power 10 e).1 : ℚ) / (power 10 e).2 = 10 ^ e := by
  simpa using power_ratio 10 e

/-! ## Ends of a neighbourhood -/

/-- Four times the lower end, in units of the last place. -/
def lowerQuarters (x : Finite64) : Nat :=
  if x.fraction.val = 0 ∧ 1 < x.exponent.val then 4 * x.significand - 1 else 4 * x.significand - 2

/-- The lower end of the neighbourhood. -/
def lower (x : Finite64) : ℚ :=
  x.lowerQuarters * 2 ^ x.scale / 4

/-- The upper end of the neighbourhood. -/
def upper (x : Finite64) : ℚ :=
  (4 * x.significand + 2) * 2 ^ x.scale / 4

/-- Whether a rational number lies in the neighbourhood: the ends belong to it when the significand
is even. -/
def Near (x : Finite64) (p : ℚ) : Prop :=
  if x.significand % 2 = 0 then x.lower ≤ p ∧ p ≤ x.upper else x.lower < p ∧ p < x.upper

theorem Near.lower_le {x : Finite64} {p : ℚ} (h : x.Near p) : x.lower ≤ p := by
  unfold Near at h
  split_ifs at h
  · exact h.1
  · exact h.1.le

theorem Near.le_upper {x : Finite64} {p : ℚ} (h : x.Near p) : p ≤ x.upper := by
  unfold Near at h
  split_ifs at h
  · exact h.2
  · exact h.2.le

theorem near_of_lt {x : Finite64} {p : ℚ} (hlower : x.lower < p) (hupper : p < x.upper) :
    x.Near p := by
  unfold Near
  split_ifs
  · exact ⟨hlower.le, hupper.le⟩
  · exact ⟨hlower, hupper⟩

theorem two_zpow_pos (e : Int) : (0 : ℚ) < 2 ^ e := by
  positivity

theorem lower_pos {x : Finite64} (hx : x.significand ≠ 0) : 0 < x.lower := by
  have hquarters : 0 < x.lowerQuarters := by
    unfold lowerQuarters
    split_ifs <;> omega
  have hcast : (0 : ℚ) < x.lowerQuarters := by exact_mod_cast hquarters
  unfold lower
  positivity

/-- The comparison of integers that is made with a multiple of a power of ten is the one of the
rational numbers. -/
theorem holds_iff_near (x : Finite64) (n : Nat) (exponent : Int) :
    x.neighbourhood.holds n (power 10 exponent).1 (power 10 exponent).2 = true ↔
      x.Near (Decimal.value ⟨n, exponent⟩) := by
  have htwo : (0 : ℚ) < (power 2 x.scale).2 := by exact_mod_cast power_den_pos Nat.two_pos x.scale
  have hten : (0 : ℚ) < (power 10 exponent).2 := by exact_mod_cast power_den_pos (by decide : 0 < 10) exponent
  have hvalue : Decimal.value ⟨n, exponent⟩ =
      (n * (power 10 exponent).1 : ℚ) / (power 10 exponent).2 := by
    rw [Decimal.value, ← power_ten_ratio, mul_div_assoc]
  have hlower : x.lower =
      (x.lowerQuarters * (power 2 x.scale).1 : ℚ) / (4 * (power 2 x.scale).2) := by
    rw [lower, ← power_two_ratio]
    field_simp
  have hupper : x.upper =
      ((4 * x.significand + 2) * (power 2 x.scale).1 : ℚ) / (4 * (power 2 x.scale).2) := by
    rw [upper, ← power_two_ratio]
    field_simp
  have hden : (0 : ℚ) < 4 * (power 2 x.scale).2 := by positivity
  unfold Near
  rw [hvalue, hlower, hupper, div_le_div_iff₀ hden hten, div_le_div_iff₀ hten hden,
    div_lt_div_iff₀ hden hten, div_lt_div_iff₀ hten hden]
  have hclosed : x.neighbourhood.closed = decide (x.significand % 2 = 0) := rfl
  unfold Neighbourhood.holds
  by_cases heven : x.significand % 2 = 0
  · simp only [hclosed, heven, decide_true, if_true, Bool.and_eq_true, decide_eq_true_eq]
    norm_cast
  · simp only [hclosed, heven, decide_false, if_false, Bool.and_eq_true, decide_eq_true_eq,
      Bool.false_eq_true]
    norm_cast

/-! ## Neighbouring numbers -/

/-- The place of a number among the magnitudes. -/
def rank (x : Finite64) : Nat :=
  2 ^ 52 * x.exponent.val + x.fraction.val

theorem rank_injective {x y : Finite64} (h : x.rank = y.rank) :
    x.exponent = y.exponent ∧ x.fraction = y.fraction := by
  have hx := x.fraction.isLt
  have hy := y.fraction.isLt
  unfold rank at h
  constructor
  · apply Fin.ext
    omega
  · apply Fin.ext
    omega

/-- The power of two that the ends of the neighbourhood of a rank are multiples of. -/
def unitAt (k : Nat) : Nat :=
  2 ^ (k / 2 ^ 52 - 1)

def significandAt (k : Nat) : Nat :=
  if k / 2 ^ 52 = 0 then k % 2 ^ 52 else 2 ^ 52 + k % 2 ^ 52

/-- The lower end of the neighbourhood at a rank, as an integer. -/
def lowerAt (k : Nat) : Nat :=
  (if k % 2 ^ 52 = 0 ∧ 1 < k / 2 ^ 52 then 4 * significandAt k - 1 else 4 * significandAt k - 2) *
    unitAt k

/-- The upper end of the neighbourhood at a rank, as an integer. -/
def upperAt (k : Nat) : Nat :=
  (4 * significandAt k + 2) * unitAt k

theorem unitAt_pos (k : Nat) : 0 < unitAt k := by
  unfold unitAt
  positivity

theorem rank_div (x : Finite64) : x.rank / 2 ^ 52 = x.exponent.val := by
  have hx := x.fraction.isLt
  unfold rank
  omega

theorem rank_mod (x : Finite64) : x.rank % 2 ^ 52 = x.fraction.val := by
  have hx := x.fraction.isLt
  unfold rank
  omega

theorem significandAt_rank (x : Finite64) : significandAt x.rank = x.significand := by
  rw [significandAt, rank_div, rank_mod, significand]
  norm_num

/-- A quarter of the smallest positive number. -/
def finestQuarter : ℚ :=
  2 ^ (-1074 : Int) / 4

theorem finestQuarter_pos : 0 < finestQuarter := by
  unfold finestQuarter
  positivity

theorem unitAt_rank (x : Finite64) : (2 : ℚ) ^ x.scale / 4 = unitAt x.rank * finestQuarter := by
  have hscale : x.scale = ((x.exponent.val - 1 : Nat) : Int) + -1074 := by
    unfold scale
    split_ifs <;> omega
  rw [unitAt, rank_div, finestQuarter, hscale, zpow_add₀ two_ne_zero, zpow_natCast, Nat.cast_pow,
    Nat.cast_ofNat, mul_div_assoc]

theorem lower_eq (x : Finite64) : x.lower = lowerAt x.rank * finestQuarter := by
  rw [lower, mul_div_assoc, unitAt_rank, lowerAt, rank_div, rank_mod, significandAt_rank,
    Nat.cast_mul, mul_assoc, lowerQuarters]

theorem upper_eq (x : Finite64) : x.upper = upperAt x.rank * finestQuarter := by
  rw [upper, mul_div_assoc, unitAt_rank, upperAt, significandAt_rank, Nat.cast_mul, mul_assoc]
  push_cast
  rfl

/-- The fields of the rank after `k`: the next fraction, or the first one of the next exponent. -/
theorem succ_fields (k : Nat) :
    ((k + 1) % 2 ^ 52 = k % 2 ^ 52 + 1 ∧ (k + 1) / 2 ^ 52 = k / 2 ^ 52) ∨
      (k % 2 ^ 52 = 2 ^ 52 - 1 ∧ (k + 1) % 2 ^ 52 = 0 ∧ (k + 1) / 2 ^ 52 = k / 2 ^ 52 + 1) := by
  omega

/-- The neighbourhoods of two neighbours share an end. -/
theorem upperAt_eq_lowerAt_succ (k : Nat) : upperAt k = lowerAt (k + 1) := by
  unfold upperAt lowerAt significandAt unitAt
  rcases succ_fields k with ⟨hmod, hdiv⟩ | ⟨hlast, hmod, hdiv⟩
  · have hinner : ¬(k % 2 ^ 52 + 1 = 0 ∧ 1 < k / 2 ^ 52) := by omega
    rw [hmod, hdiv, if_neg hinner]
    congr 1
    split_ifs <;> omega
  · rw [hmod, hdiv, hlast]
    rcases Nat.eq_zero_or_pos (k / 2 ^ 52) with hzero | hpos
    · rw [hzero]
      rfl
    · obtain ⟨e, he⟩ := Nat.exists_eq_succ_of_ne_zero (Nat.ne_of_gt hpos)
      rw [he, if_neg (Nat.succ_ne_zero e), if_neg (Nat.succ_ne_zero _), if_pos ⟨rfl, by omega⟩,
        Nat.add_sub_cancel, Nat.succ_sub_one, Nat.succ_eq_add_one, pow_succ]
      ring

/-- The significands of two neighbours differ in parity. -/
theorem significandAt_succ_parity (k : Nat) :
    significandAt k % 2 ≠ significandAt (k + 1) % 2 := by
  unfold significandAt
  rcases succ_fields k with ⟨hmod, hdiv⟩ | ⟨hlast, hmod, hdiv⟩
  · rw [hmod, hdiv]
    split_ifs <;> omega
  · rw [hmod, hdiv, hlast, if_neg (Nat.succ_ne_zero _)]
    split_ifs <;> omega

theorem lowerAt_lt_upperAt (k : Nat) : lowerAt k < upperAt k := by
  unfold lowerAt upperAt
  apply Nat.mul_lt_mul_of_pos_right _ (unitAt_pos k)
  split_ifs <;> omega

theorem upperAt_le_lowerAt {j k : Nat} (h : j < k) : upperAt j ≤ lowerAt k := by
  induction k, h using Nat.le_induction with
  | base => exact (upperAt_eq_lowerAt_succ j).le
  | succ k _ ih =>
    calc
      upperAt j ≤ lowerAt k := ih
      _ ≤ upperAt k := (lowerAt_lt_upperAt k).le
      _ = lowerAt (k + 1) := upperAt_eq_lowerAt_succ k

theorem upperAt_lt_lowerAt {j k : Nat} (h : j + 1 < k) : upperAt j < lowerAt k :=
  calc
    upperAt j = lowerAt (j + 1) := upperAt_eq_lowerAt_succ j
    _ < upperAt (j + 1) := lowerAt_lt_upperAt (j + 1)
    _ ≤ lowerAt k := upperAt_le_lowerAt h

/-- No rational number lies in the neighbourhoods of two magnitudes. -/
theorem not_near_of_rank_lt {x y : Finite64} {p : ℚ} (hrank : x.rank < y.rank) (hx : x.Near p)
    (hy : y.Near p) : False := by
  have hends : y.lower ≤ x.upper := hy.lower_le.trans hx.le_upper
  have hcast : (lowerAt y.rank : ℚ) ≤ upperAt x.rank := by
    rw [lower_eq, upper_eq] at hends
    exact le_of_mul_le_mul_right hends finestQuarter_pos
  have hle : lowerAt y.rank ≤ upperAt x.rank := by exact_mod_cast hcast
  have hnext : y.rank = x.rank + 1 := by
    by_contra hne
    exact absurd (upperAt_lt_lowerAt (by omega : x.rank + 1 < y.rank)) (not_lt.mpr hle)
  have hshared : x.upper = y.lower := by
    rw [upper_eq, lower_eq, hnext, upperAt_eq_lowerAt_succ]
  have hparity := significandAt_succ_parity x.rank
  rw [← hnext, significandAt_rank, significandAt_rank] at hparity
  unfold Near at hx hy
  split_ifs at hx hy with hxeven hyeven hyeven
  · omega
  · exact absurd hx.2 (not_le.mpr (hshared ▸ hy.1))
  · exact absurd hy.1 (not_le.mpr (hshared ▸ hx.2))
  · exact absurd (hx.2.trans_eq hshared) (not_lt.mpr hy.1.le)

/-- A decimal number determines the magnitude whose neighbourhood it lies in. -/
theorem fields_eq_of_near {x y : Finite64} {p : ℚ} (hx : x.Near p) (hy : y.Near p) :
    x.exponent = y.exponent ∧ x.fraction = y.fraction := by
  rcases lt_trichotomy x.rank y.rank with hlt | heq | hgt
  · exact (not_near_of_rank_lt hlt hx hy).elim
  · exact rank_injective heq
  · exact (not_near_of_rank_lt hgt hy hx).elim

end EntityCompiler.Finite64
