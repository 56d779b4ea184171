import EntityCompiler.Calendar.Instant
import EntityCompiler.Json.Read
import Mathlib.Tactic

/-!
# Digits of numerals

A numeral padded to a fixed width is the list of the last digits of its number, in any base.  Reading
such a list gives the number back, in ASCII decimal digits and in hexadecimal units.  Decimal numerals
of integers determine the integer, and each consists of characters that may stand in a number.
-/

namespace EntityCompiler.Numeral

/-! ## Fixed width -/

/-- The last `width` digits of a number. -/
def fixedDigits (base : Nat) : (width n : Nat) → List Char
  | 0, _ => []
  | width + 1, n => fixedDigits base width (n / base) ++ [Nat.digitChar (n % base)]

@[simp]
theorem length_fixedDigits (base width n : Nat) : (fixedDigits base width n).length = width := by
  induction width generalizing n with
  | zero => rfl
  | succ width ih => simp [fixedDigits, ih]

/-- The last digits of a numeral are those of its number, the digits before them those of the quotient. -/
theorem fixedDigits_add (base width count n : Nat) : fixedDigits base (width + count) n =
    fixedDigits base width (n / base ^ count) ++ fixedDigits base count n := by
  induction count generalizing n with
  | zero => simp [fixedDigits]
  | succ count ih =>
    rw [← Nat.add_assoc, fixedDigits, ih, Nat.div_div_eq_div_mul, ← Nat.pow_succ', fixedDigits,
      List.append_assoc]

theorem fixedDigits_zero_right (base width : Nat) :
    fixedDigits base width 0 = List.replicate width '0' := by
  induction width with
  | zero => rfl
  | succ width ih =>
    rw [List.replicate_succ', fixedDigits, Nat.zero_div, ih, Nat.zero_mod]
    rfl

theorem padLeft_append_singleton (width : Nat) (digits : List Char) (c : Char) :
    padLeft (width + 1) (digits ++ [c]) = padLeft width digits ++ [c] := by
  simp [padLeft]

/-- Padding a numeral that fits gives its digits at the fixed width. -/
theorem padLeft_toDigits {base width n : Nat} (hbase : 1 < base) (hwidth : 0 < width)
    (hn : n < base ^ width) : padLeft width (Nat.toDigits base n) = fixedDigits base width n := by
  induction width generalizing n with
  | zero => exact absurd hwidth (lt_irrefl 0)
  | succ width ih =>
    by_cases hsmall : n < base
    · rw [Nat.toDigits_of_lt_base hsmall, ← List.nil_append [n.digitChar], padLeft_append_singleton,
        fixedDigits, Nat.div_eq_of_lt hsmall, fixedDigits_zero_right, Nat.mod_eq_of_lt hsmall]
      simp [padLeft]
    · have hpos : 0 < width := by
        rcases Nat.eq_zero_or_pos width with rfl | hpos
        · exact absurd (by simpa using hn) hsmall
        · exact hpos
      have hdiv : n / base < base ^ width :=
        Nat.div_lt_of_lt_mul (by rwa [pow_succ, Nat.mul_comm] at hn)
      rw [Nat.toDigits_of_base_le hbase (not_lt.mp hsmall), padLeft_append_singleton, ih hpos hdiv,
        fixedDigits]

theorem toList_padded {width n : Nat} (hwidth : 0 < width) (hn : n < 10 ^ width) :
    (padded width n).toList = fixedDigits 10 width n := by
  rw [padded, String.toList_ofList, padLeft_toDigits (by decide) hwidth hn]

theorem hexDigits_eq_fixedDigits {width n : Nat} (hwidth : 0 < width) (hn : n < 16 ^ width) :
    hexDigits width n = fixedDigits 16 width n :=
  padLeft_toDigits (by decide) hwidth hn

/-! ## Reading digits -/

theorem isDigit_digitChar : ∀ d < 10, Text.isDigit (Nat.digitChar d) = true := by
  decide

theorem asciiDigit?_digitChar : ∀ d < 10, Text.asciiDigit? (Nat.digitChar d) = some d := by
  decide

theorem hexValue?_digitChar : ∀ d < 16, Json.hexValue? (Nat.digitChar d) = some d := by
  decide

theorem eq_digitChar_of_asciiDigit? {c : Char} {d : Nat} (h : Text.asciiDigit? c = some d) :
    d < 10 ∧ c = Nat.digitChar d := by
  unfold Text.asciiDigit? at h
  split_ifs at h with hrange
  obtain rfl := Option.some.inj h
  have hlower : 48 ≤ c.toNat := hrange.1
  have hupper : c.toNat ≤ 57 := hrange.2
  have hchar : c = Char.ofNat c.toNat := (Char.ofNat_toNat c).symm
  generalize c.toNat = n at hlower hupper hchar
  subst hchar
  interval_cases n <;> exact ⟨by decide, rfl⟩

theorem number?_append_singleton (digits : List Char) (c : Char) :
    Instant.number? (digits ++ [c]) = (Instant.number? digits).bind fun n ↦
      (Text.asciiDigit? c).map fun d ↦ 10 * n + d := by
  unfold Instant.number?
  rw [List.mapM_append]
  cases digits.mapM Text.asciiDigit? with
  | none => rfl
  | some values => cases hc : Text.asciiDigit? c <;> simp [hc, ofDigits]

/-- Reading the digits of a number gives it back. -/
theorem number?_fixedDigits {width n : Nat} (hn : n < 10 ^ width) :
    Instant.number? (fixedDigits 10 width n) = some n := by
  induction width generalizing n with
  | zero =>
    obtain rfl : n = 0 := by simpa using hn
    rfl
  | succ width ih =>
    have hdiv : n / 10 < 10 ^ width := Nat.div_lt_of_lt_mul (by rwa [pow_succ, Nat.mul_comm] at hn)
    rw [fixedDigits, number?_append_singleton, ih hdiv,
      asciiDigit?_digitChar _ (Nat.mod_lt n (by decide))]
    simp only [Option.bind_some, Option.map_some, Option.some.injEq]
    omega

/-- A number is read from its digits at a fixed width, and from no other text. -/
theorem number?_eq_some_iff {digits : List Char} {n : Nat} :
    Instant.number? digits = some n ↔
      digits = fixedDigits 10 digits.length n ∧ n < 10 ^ digits.length := by
  constructor
  · intro h
    induction digits using List.reverseRecOn generalizing n with
    | nil =>
      obtain rfl : 0 = n := Option.some.inj h
      exact ⟨rfl, by decide⟩
    | append_singleton digits c ih =>
      rw [number?_append_singleton, Option.bind_eq_some_iff] at h
      obtain ⟨front, hfront, hlast⟩ := h
      obtain ⟨last, hdigit, rfl⟩ := Option.map_eq_some_iff.mp hlast
      obtain ⟨hsmall, rfl⟩ := eq_digitChar_of_asciiDigit? hdigit
      obtain ⟨hdigits, hbound⟩ := ih hfront
      have hdiv : (10 * front + last) / 10 = front := by omega
      have hmod : (10 * front + last) % 10 = last := by omega
      rw [List.length_append, List.length_singleton, fixedDigits, hdiv, hmod, ← hdigits, pow_succ]
      exact ⟨rfl, by omega⟩
  · rintro ⟨hdigits, hbound⟩
    rw [hdigits]
    exact number?_fixedDigits hbound

theorem number?_append_zeros (digits : List Char) (count : Nat) :
    Instant.number? (digits ++ List.replicate count '0') =
      (Instant.number? digits).map (· * 10 ^ count) := by
  induction count with
  | zero => simp
  | succ count ih =>
    rw [List.replicate_succ', ← List.append_assoc, number?_append_singleton, ih]
    cases Instant.number? digits with
    | none => rfl
    | some n =>
      have hzero : Text.asciiDigit? '0' = some 0 := by decide
      simp only [hzero, Option.map_some, Option.bind_some, Option.some.injEq, pow_succ]
      ring

theorem isDigit_of_mem_fixedDigits {width n : Nat} {c : Char} (hc : c ∈ fixedDigits 10 width n) :
    Text.isDigit c = true := by
  induction width generalizing n with
  | zero => simp [fixedDigits] at hc
  | succ width ih =>
    rw [fixedDigits, List.mem_append, List.mem_singleton] at hc
    rcases hc with hc | rfl
    · exact ih hc
    · exact isDigit_digitChar _ (Nat.mod_lt n (by decide))

/-- Reading the four digits of a UTF-16 unit gives it back. -/
theorem readUnit_hexDigits {n : Nat} (hn : n < 0x10000) (rest : List Char) :
    Json.readUnit (hexDigits 4 n ++ rest) = some (n, rest) := by
  have hdigit (m : Nat) : Json.hexValue? (Nat.digitChar (m % 16)) = some (m % 16) :=
    hexValue?_digitChar _ (Nat.mod_lt m (by decide))
  rw [hexDigits_eq_fixedDigits (by decide) hn]
  simp only [fixedDigits, List.nil_append, List.cons_append, Json.readUnit, List.mapM_cons,
    List.mapM_nil, hdigit]
  simp only [Option.pure_def, Option.bind_eq_bind, Option.bind_some, List.foldl_cons,
    List.foldl_nil, Option.some.injEq, Prod.mk.injEq, and_true]
  omega

/-! ## Decimal numerals -/

theorem toDigits_injective {m n : Nat} (h : Nat.toDigits 10 m = Nat.toDigits 10 n) : m = n := by
  have hread := congrArg (fun digits ↦ Nat.ofDigitChars 10 digits 0) h
  simpa only [Nat.ofDigitChars_toDigits (b := 10) (by decide) (by decide)] using hread

theorem isAsciiDigit_of_mem_toDigits {n : Nat} {c : Char} (hc : c ∈ Nat.toDigits 10 n) :
    Text.isAsciiDigit c = true := by
  have hdigit : c.isDigit = true := Nat.isDigit_of_mem_toDigits (by decide) (by decide) hc
  simpa [Char.isDigit, Text.isAsciiDigit, Char.le_def] using hdigit

theorem toList_ofInt (n : Int) :
    (ofInt n).toList = (if n < 0 then ['-'] else []) ++ Nat.toDigits 10 n.natAbs := by
  cases n with
  | ofNat n => simp [ofInt, ofNat]
  | negSucc n => simp [ofInt, ofNat, Int.negSucc_lt_zero]

/-- Integers with the same numeral are equal. -/
theorem ofInt_injective {m n : Int} (h : (ofInt m).toList = (ofInt n).toList) : m = n := by
  have hminus (k : Nat) : '-' ∉ Nat.toDigits 10 k := fun hmem ↦
    absurd (isAsciiDigit_of_mem_toDigits hmem) (by decide)
  rw [toList_ofInt, toList_ofInt] at h
  by_cases hm : m < 0 <;> by_cases hn : n < 0 <;>
    simp only [hm, hn, if_true, if_false, List.nil_append, List.cons_append, List.cons.injEq,
      true_and] at h
  · have := toDigits_injective h
    omega
  · exact absurd (h ▸ List.mem_cons_self) (hminus n.natAbs)
  · exact absurd (h ▸ List.mem_cons_self) (hminus m.natAbs)
  · have := toDigits_injective h
    omega

theorem mem_toList_ofInt {n : Int} {c : Char} (hc : c ∈ (ofInt n).toList) :
    c = '-' ∨ Text.isAsciiDigit c = true := by
  rw [toList_ofInt, List.mem_append] at hc
  rcases hc with hc | hc
  · left
    by_cases hn : n < 0 <;> simp_all
  · exact .inr (isAsciiDigit_of_mem_toDigits hc)

theorem toList_ofInt_ne_nil (n : Int) : (ofInt n).toList ≠ [] := by
  rw [toList_ofInt]
  exact List.append_ne_nil_of_right_ne_nil _ Nat.toDigits_ne_nil

end EntityCompiler.Numeral
