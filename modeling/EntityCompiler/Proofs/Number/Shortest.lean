import EntityCompiler.Proofs.Number.Neighbourhood

/-!
# The search for the shortest decimal number

A multiple of a power of ten that is at least sixteen places below the leading digit of a number is
closer to it than the ends of its neighbourhood.  The search over seventeen places therefore ends with a
decimal number of the neighbourhood, for every number that is not zero.
-/

namespace EntityCompiler.Finite64

/-! ## The leading place -/

theorem pow_length_toDigits_le {n : Nat} (hn : 0 < n) :
    10 ^ ((Nat.toDigits 10 n).length - 1) ≤ n := by
  by_cases hone : (Nat.toDigits 10 n).length - 1 = 0
  · rw [hone]
    exact hn
  · by_contra hlt
    have hlength := (Nat.length_toDigits_le_iff (b := 10) (by decide) (Nat.pos_of_ne_zero hone)).mpr
      (not_le.mp hlt)
    omega

theorem lt_pow_length_toDigits (n : Nat) : n < 10 ^ (Nat.toDigits 10 n).length :=
  (Nat.length_toDigits_le_iff (by decide) Nat.length_toDigits_pos).mp le_rfl

/-- The leading place of a quotient is not above the quotient. -/
theorem zpow_leadingExponent_le {num den : Nat} (hnum : 0 < num) (hden : 0 < den) :
    (10 : ℚ) ^ leadingExponent num den ≤ num / den := by
  have hdenQ : (0 : ℚ) < den := by exact_mod_cast hden
  set a := (Nat.toDigits 10 num).length with ha
  set b := (Nat.toDigits 10 den).length with hb
  have hguess : leadingExponent num den = if den * (power 10 ((a : Int) - b)).1 ≤
      num * (power 10 ((a : Int) - b)).2 then (a : Int) - b else (a : Int) - b - 1 := rfl
  have hplaces : (0 : ℚ) < (power 10 ((a : Int) - b)).2 := by
    exact_mod_cast power_den_pos (by decide : 0 < 10) _
  rw [hguess]
  split_ifs with hle
  · rw [← power_ten_ratio, div_le_div_iff₀ hplaces hdenQ]
    have hcast : ((den * (power 10 ((a : Int) - b)).1 : Nat) : ℚ) ≤
        (num * (power 10 ((a : Int) - b)).2 : Nat) := by exact_mod_cast hle
    push_cast at hcast
    linarith
  · have hsize : 0 < a := Nat.length_toDigits_pos
    have hsplit : (10 : ℚ) ^ ((a : Int) - b - 1) = 10 ^ (a - 1) / 10 ^ b := by
      rw [show (a : Int) - b - 1 = ((a - 1 : Nat) : Int) - (b : Nat) by omega,
        zpow_sub₀ (by norm_num), zpow_natCast, zpow_natCast]
    have hlow : ((10 ^ (a - 1) : Nat) : ℚ) ≤ num := by exact_mod_cast pow_length_toDigits_le hnum
    have hhigh : (den : ℚ) ≤ (10 ^ b : Nat) := by exact_mod_cast (lt_pow_length_toDigits den).le
    push_cast at hlow hhigh
    rw [hsplit]
    exact div_le_div₀ (by positivity) hlow hdenQ hhigh

/-! ## Rounding to a place -/

/-- Whether the search tries the quotient rounded down before the one rounded up. -/
def RoundsDown (num den : Nat) : Prop :=
  if 2 * (num % den) = den then num / den % 2 = 0 else 2 * (num % den) < den

instance (num den : Nat) : Decidable (RoundsDown num den) := by
  unfold RoundsDown
  infer_instance

/-- The multiple that the search tries first. -/
def firstQuotient (num den : Nat) : Nat :=
  if RoundsDown num den then num / den else num / den + 1

/-- The multiple that the search tries next. -/
def secondQuotient (num den : Nat) : Nat :=
  if RoundsDown num den then num / den + 1 else num / den

/-- The multiple tried first is at most half a unit away. -/
theorem firstQuotient_bounds (num : Nat) {den : Nat} (hden : 0 < den) :
    2 * num ≤ 2 * (firstQuotient num den * den) + den ∧
      2 * (firstQuotient num den * den) ≤ 2 * num + den := by
  have hdiv := Nat.div_add_mod num den
  have hmod := Nat.mod_lt num hden
  rw [Nat.mul_comm] at hdiv
  have hup : (num / den + 1) * den = num / den * den + den := by ring
  unfold firstQuotient RoundsDown
  split_ifs <;> constructor <;> omega

/-- The search at one place, by its first and second try. -/
def choice (around : Neighbourhood) (exponent : Int) (first second : Nat) : Option Decimal :=
  if around.holds first (power 10 exponent).1 (power 10 exponent).2 then
    some ⟨first, exponent⟩
  else if around.holds second (power 10 exponent).1 (power 10 exponent).2 then
    some ⟨second, exponent⟩
  else none

theorem nearest?_eq (around : Neighbourhood) (exponent : Int) :
    around.nearest? exponent = choice around exponent
      (firstQuotient (around.value * (power 10 exponent).2)
        (around.den * (power 10 exponent).1))
      (secondQuotient (around.value * (power 10 exponent).2)
        (around.den * (power 10 exponent).1)) := by
  rfl

/-- What the search finds at a place lies in the neighbourhood. -/
theorem near_of_nearest? {x : Finite64} {exponent : Int} {d : Decimal}
    (h : x.neighbourhood.nearest? exponent = some d) : x.Near d.value := by
  rw [nearest?_eq, choice] at h
  split_ifs at h with hfirst hsecond
  · rw [← Option.some.inj h, ← holds_iff_near]
    exact hfirst
  · rw [← Option.some.inj h, ← holds_iff_near]
    exact hsecond

theorem significand_lt (x : Finite64) : x.significand < 2 ^ 53 := by
  have hfraction := x.fraction.isLt
  unfold significand
  split_ifs <;> omega

/-- Half a unit at a place far enough below the leading digit is less than the distance to either end
of the neighbourhood. -/
theorem half_unit_lt {x : Finite64} (hx : x.significand ≠ 0) {unit : ℚ}
    (hunit : unit * 10 ^ 16 ≤ x.magnitude) :
    unit / 2 < x.magnitude - x.lower ∧ unit / 2 < x.upper - x.magnitude := by
  have hscale := two_zpow_pos x.scale
  have hsize : (x.significand : ℚ) + 1 ≤ 2 ^ 53 := by exact_mod_cast significand_lt x
  have hupper : x.upper - x.magnitude = 2 ^ x.scale / 2 := by
    rw [upper, magnitude]
    ring
  have hfar : unit / 2 < 2 ^ x.scale / 2 := by
    rw [magnitude] at hunit
    nlinarith
  refine ⟨?_, hupper ▸ hfar⟩
  by_cases hpower : x.fraction.val = 0 ∧ 1 < x.exponent.val
  · have hsignificand : x.significand = 2 ^ 52 := by
      unfold significand
      rw [if_neg (by omega), hpower.1, Nat.add_zero]
      norm_num
    have hlower : x.magnitude - x.lower = 2 ^ x.scale / 4 := by
      rw [lower, lowerQuarters, if_pos hpower, magnitude, hsignificand]
      norm_num
      ring
    rw [magnitude, hsignificand] at hunit
    rw [hlower]
    push_cast at hunit
    nlinarith
  · have hlower : x.magnitude - x.lower = 2 ^ x.scale / 2 := by
      have hcast : ((4 * x.significand - 2 : Nat) : ℚ) = 4 * x.significand - 2 := by
        rw [Nat.cast_sub (by omega)]
        push_cast
        ring
      rw [lower, lowerQuarters, if_neg hpower, hcast, magnitude]
      ring
    rw [hlower]
    exact hfar

theorem neighbourhood_ratio (x : Finite64) :
    (x.neighbourhood.value : ℚ) / x.neighbourhood.den = x.magnitude := by
  have hden : (0 : ℚ) < (power 2 x.scale).2 := by exact_mod_cast power_den_pos Nat.two_pos x.scale
  rw [magnitude, ← power_two_ratio]
  simp only [neighbourhood]
  push_cast
  field_simp

/-- The first try is at most half a unit away from the number. -/
theorem abs_firstQuotient_sub_le (x : Finite64) (exponent : Int) :
    |(Decimal.value ⟨firstQuotient (x.neighbourhood.value * (power 10 exponent).2)
      (x.neighbourhood.den * (power 10 exponent).1), exponent⟩) - x.magnitude| ≤
        10 ^ exponent / 2 := by
  set num := x.neighbourhood.value * (power 10 exponent).2 with hnum
  set den := x.neighbourhood.den * (power 10 exponent).1 with hden
  have htenNum : (0 : ℚ) < (power 10 exponent).1 := by exact_mod_cast power_num_pos (by decide : 0 < 10) exponent
  have htenDen : (0 : ℚ) < (power 10 exponent).2 := by exact_mod_cast power_den_pos (by decide : 0 < 10) exponent
  have haround : 0 < x.neighbourhood.den :=
    Nat.mul_pos (by decide) (power_den_pos Nat.two_pos x.scale)
  have haroundQ : (0 : ℚ) < x.neighbourhood.den := by exact_mod_cast haround
  have hpos : 0 < den := Nat.mul_pos haround (power_num_pos (by decide : 0 < 10) exponent)
  have hposQ : (0 : ℚ) < den := by exact_mod_cast hpos
  have hmagnitude : x.magnitude = (num / den : ℚ) * 10 ^ exponent := by
    rw [← neighbourhood_ratio, ← power_ten_ratio, hnum, hden]
    push_cast
    field_simp
  obtain ⟨hlow, hhigh⟩ := firstQuotient_bounds num hpos
  have hlowQ : (2 * num : ℚ) ≤ 2 * (firstQuotient num den * den) + den := by exact_mod_cast hlow
  have hhighQ : (2 * (firstQuotient num den * den) : ℚ) ≤ 2 * num + den := by exact_mod_cast hhigh
  have hclose : |(firstQuotient num den : ℚ) - num / den| ≤ 1 / 2 := by
    rw [abs_le]
    constructor
    · rw [neg_le_sub_iff_le_add, div_le_iff₀ hposQ]
      linarith
    · rw [sub_le_iff_le_add, ← sub_le_iff_le_add', le_div_iff₀ hposQ]
      linarith
  have hunit : (0 : ℚ) < 10 ^ exponent := by positivity
  calc
    |Decimal.value ⟨firstQuotient num den, exponent⟩ - x.magnitude| =
        |(firstQuotient num den : ℚ) - num / den| * 10 ^ exponent := by
      rw [Decimal.value, hmagnitude, ← sub_mul, abs_mul, abs_of_pos hunit]
    _ ≤ 1 / 2 * 10 ^ exponent := mul_le_mul_of_nonneg_right hclose hunit.le
    _ = 10 ^ exponent / 2 := by ring

/-- The search succeeds at every place that is far enough below the leading digit. -/
theorem exists_nearest? {x : Finite64} (hx : x.significand ≠ 0) {exponent : Int}
    (hunit : (10 : ℚ) ^ exponent * 10 ^ 16 ≤ x.magnitude) :
    ∃ d, x.neighbourhood.nearest? exponent = some d := by
  obtain ⟨hbelow, habove⟩ := half_unit_lt hx hunit
  have hclose := abs_le.mp (abs_firstQuotient_sub_le x exponent)
  have hnear := near_of_lt (x := x) (by linarith [hclose.1]) (by linarith [hclose.2])
  rw [← holds_iff_near] at hnear
  exact ⟨_, by rw [nearest?_eq, choice, if_pos hnear]⟩

/-- The shortest decimal number found for a number lies in its neighbourhood. -/
theorem near_shortestDecimal {x : Finite64} (hx : x.significand ≠ 0) :
    x.Near x.shortestDecimal.value := by
  set leading := leadingExponent x.neighbourhood.value x.neighbourhood.den with hleading
  have hvalue : 0 < x.neighbourhood.value :=
    Nat.mul_pos (Nat.mul_pos (by decide) (Nat.pos_of_ne_zero hx)) (power_num_pos Nat.two_pos x.scale)
  have hden : 0 < x.neighbourhood.den := Nat.mul_pos (by decide) (power_den_pos Nat.two_pos x.scale)
  have hplace := zpow_leadingExponent_le hvalue hden
  rw [neighbourhood_ratio] at hplace
  have hunit : (10 : ℚ) ^ (leading - ((16 : Nat) : Int)) * 10 ^ 16 ≤ x.magnitude := by
    rwa [zpow_sub₀ (by norm_num), zpow_natCast, div_mul_cancel₀ _ (by norm_num)]
  obtain ⟨last, hlast⟩ := exists_nearest? hx hunit
  have hsearch : ∃ d, (((List.range 17).map fun n : Nat ↦
      x.neighbourhood.nearest? (leading - n)).findSome? id) = some d := by
    rw [← Option.isSome_iff_exists, List.findSome?_isSome_iff]
    exact ⟨some last, List.mem_map.mpr ⟨16, by decide, hlast⟩, rfl⟩
  obtain ⟨d, hd⟩ := hsearch
  have hshortest : x.shortestDecimal = d := by
    rw [shortestDecimal, ← hleading, hd]
    rfl
  obtain ⟨candidate, hmem, hcandidate⟩ := List.exists_of_findSome?_eq_some hd
  obtain ⟨n, -, hn⟩ := List.mem_map.mp hmem
  rw [hshortest]
  exact near_of_nearest? (hn.trans hcandidate)

end EntityCompiler.Finite64
