import EntityCompiler.Json.Read
import EntityCompiler.Proofs.Number.Digits
import EntityCompiler.Proofs.Number.Shortest
import Mathlib.Data.List.TakeWhile

/-!
# Texts of finite numbers

The text of a finite number denotes a decimal number in its neighbourhood, in every layout.  As a
decimal number lies in one neighbourhood only, two finite numbers with the same text are the same, the
two zeros included.
-/

namespace EntityCompiler

open Numeral

/-! ## Reading the parts of a decimal text -/

namespace Binary64

/-- Whether a text consists of ASCII digits. -/
def AllDigits (cs : List Char) : Prop :=
  ∀ c ∈ cs, c.isDigit = true

theorem allDigits_toDigits (n : Nat) : AllDigits (Nat.toDigits 10 n) := fun _ hc ↦
  Nat.isDigit_of_mem_toDigits (by decide) (by decide) hc

theorem allDigits_replicate_zero (n : Nat) : AllDigits (List.replicate n '0') := by
  intro c hc
  rw [List.eq_of_mem_replicate hc]
  rfl

theorem AllDigits.append {cs ds : List Char} (hcs : AllDigits cs) (hds : AllDigits ds) :
    AllDigits (cs ++ ds) := by
  intro c hc
  rcases List.mem_append.mp hc with hc | hc
  · exact hcs c hc
  · exact hds c hc

theorem asciiDigit?_of_isDigit {c : Char} (hc : c.isDigit = true) :
    Text.asciiDigit? c = some (c.toNat - 48) := by
  have hrange : '0' ≤ c ∧ c ≤ '9' := by simpa [Char.isDigit, Char.le_def] using hc
  rw [Text.asciiDigit?, if_pos hrange]

theorem mapM_asciiDigit? {cs : List Char} (hcs : AllDigits cs) :
    cs.mapM Text.asciiDigit? = some (cs.map fun c ↦ c.toNat - 48) := by
  induction cs with
  | nil => rfl
  | cons c cs ih =>
    rw [List.mapM_cons, asciiDigit?_of_isDigit (hcs c List.mem_cons_self),
      ih fun d hd ↦ hcs d (List.mem_cons_of_mem c hd)]
    rfl

theorem ofDigits_map (cs : List Char) :
    ofDigits (cs.map fun c ↦ c.toNat - 48) = Nat.ofDigitChars 10 cs 0 := by
  rw [ofDigits, List.foldl_map]
  rfl

theorem takeWhile_digits {cs rest : List Char} (hcs : AllDigits cs)
    (hrest : ∀ c ∈ rest.head?, c.isDigit = false) : (cs ++ rest).takeWhile Char.isDigit = cs := by
  rw [List.takeWhile_append_of_pos hcs]
  cases rest with
  | nil => simp
  | cons c rest => simp [hrest c rfl]

theorem dropWhile_digits {cs rest : List Char} (hcs : AllDigits cs)
    (hrest : ∀ c ∈ rest.head?, c.isDigit = false) : (cs ++ rest).dropWhile Char.isDigit = rest := by
  rw [List.dropWhile_append_of_pos hcs]
  cases rest with
  | nil => simp
  | cons c rest => simp [hrest c rfl]

theorem splitFraction_of_ne {tail : List Char} (hpoint : ∀ c ∈ tail.head?, c ≠ '.') :
    splitFraction tail = ([], tail) := by
  unfold splitFraction
  split
  next more => exact absurd rfl (hpoint '.' rfl)
  next => rfl

/-- A text with a point denotes its digits, moved by the exponent and the digits after the point. -/
theorem readDecimal?_point (whole fraction tail : List Char) {exponent : Int}
    (hwhole : AllDigits whole) (hfraction : AllDigits fraction) (hne : whole ++ fraction ≠ [])
    (htail : ∀ c ∈ tail.head?, c.isDigit = false) (hexponent : readExponent? tail = some exponent) :
    readDecimal? (whole ++ '.' :: (fraction ++ tail)) =
      some ⟨Nat.ofDigitChars 10 (whole ++ fraction) 0, exponent - fraction.length⟩ := by
  have hpoint : ∀ c ∈ ('.' :: (fraction ++ tail)).head?, c.isDigit = false := by
    simp
  have hdigits := mapM_asciiDigit? (hwhole.append hfraction)
  unfold readDecimal?
  rw [takeWhile_digits hwhole hpoint, dropWhile_digits hwhole hpoint, splitFraction]
  simp only [takeWhile_digits hfraction htail, dropWhile_digits hfraction htail, hdigits,
    Option.bind_eq_bind, Option.bind_some, List.isEmpty_map, hexponent, ofDigits_map]
  rw [if_neg (by simpa using hne)]
  rfl

/-- A text without a point denotes its digits, moved by the exponent. -/
theorem readDecimal?_whole (whole tail : List Char) {exponent : Int} (hwhole : AllDigits whole)
    (hne : whole ≠ []) (htail : ∀ c ∈ tail.head?, c.isDigit = false)
    (hpoint : ∀ c ∈ tail.head?, c ≠ '.') (hexponent : readExponent? tail = some exponent) :
    readDecimal? (whole ++ tail) = some ⟨Nat.ofDigitChars 10 whole 0, exponent⟩ := by
  have hdigits := mapM_asciiDigit? hwhole
  unfold readDecimal?
  rw [takeWhile_digits hwhole htail, dropWhile_digits hwhole htail, splitFraction_of_ne hpoint]
  simp only [List.append_nil, hdigits, Option.bind_eq_bind, Option.bind_some, List.isEmpty_map,
    hexponent, ofDigits_map]
  rw [if_neg (by simpa using hne)]
  simp

end Binary64

namespace Finite64

open Binary64

/-! ## Layouts -/

/-- What a decimal text denotes when its leading digit has a given place. -/
def Denotes (text digits : List Char) (leading : Int) : Prop :=
  ∃ d, readDecimal? text = some d ∧
    d.value = Nat.ofDigitChars 10 digits 0 * 10 ^ (leading + 1 - digits.length)

/-- The digits of a layout after a point and zeros. -/
theorem denotes_below_one {digits : List Char} (hdigits : AllDigits digits) {leading : Int}
    (hleading : leading < 0) :
    Denotes ('0' :: '.' :: List.replicate (leading.natAbs - 1) '0' ++ digits) digits leading := by
  have hread := readDecimal?_point ['0'] (List.replicate (leading.natAbs - 1) '0' ++ digits) []
    (allDigits_replicate_zero 1) ((allDigits_replicate_zero _).append hdigits) (by simp) (by simp) rfl
  rw [List.append_nil] at hread
  refine ⟨_, hread, ?_⟩
  have hexponent : (0 : Int) - (List.replicate (leading.natAbs - 1) '0' ++ digits).length =
      leading + 1 - digits.length := by
    simp only [List.length_append, List.length_replicate]
    omega
  have hvalue : Nat.ofDigitChars 10 (['0'] ++ (List.replicate (leading.natAbs - 1) '0' ++ digits)) 0
      = Nat.ofDigitChars 10 digits 0 := by
    rw [Nat.ofDigitChars_append, Nat.ofDigitChars_append, Nat.ofDigitChars_replicate_zero]
    rfl
  rw [Decimal.value, hexponent, hvalue]

/-- The digits of a layout before a point, with zeros up to the point. -/
theorem denotes_integral {digits : List Char} (hdigits : AllDigits digits) {leading : Int}
    (hleading : 0 ≤ leading) (hshort : digits.length ≤ leading.toNat + 1) :
    Denotes (digits ++ List.replicate (leading.toNat + 1 - digits.length) '0' ++ ['.', '0']) digits
      leading := by
  have hread := readDecimal?_point
    (digits ++ List.replicate (leading.toNat + 1 - digits.length) '0') ['0'] []
    (hdigits.append (allDigits_replicate_zero _)) (allDigits_replicate_zero 1) (by simp) (by simp) rfl
  rw [List.append_nil] at hread
  refine ⟨_, hread, ?_⟩
  have hvalue : Nat.ofDigitChars 10
      (digits ++ List.replicate (leading.toNat + 1 - digits.length) '0' ++ ['0']) 0 =
      Nat.ofDigitChars 10 digits 0 * 10 ^ (leading.toNat + 1 - digits.length) * 10 := by
    rw [Nat.ofDigitChars_append, Nat.ofDigitChars_append, Nat.ofDigitChars_replicate_zero,
      ← List.replicate_one, Nat.ofDigitChars_replicate_zero]
    ring
  have hexponent : leading + 1 - digits.length =
      ((leading.toNat + 1 - digits.length : Nat) : Int) := by omega
  rw [Decimal.value, hvalue, hexponent, zpow_natCast]
  push_cast
  norm_num
  ring

/-- The digits of a layout on both sides of a point. -/
theorem denotes_split {digits : List Char} (hne : digits ≠ []) (hdigits : AllDigits digits)
    {leading : Int} (hleading : 0 ≤ leading) (hlong : ¬digits.length ≤ leading.toNat + 1) :
    Denotes (digits.take (leading.toNat + 1) ++ '.' :: digits.drop (leading.toNat + 1)) digits
      leading := by
  have hread := readDecimal?_point (digits.take (leading.toNat + 1))
    (digits.drop (leading.toNat + 1)) []
    (fun c hc ↦ hdigits c (List.mem_of_mem_take hc))
    (fun c hc ↦ hdigits c (List.mem_of_mem_drop hc)) (by simpa using hne) (by simp) rfl
  rw [List.append_nil, List.take_append_drop] at hread
  refine ⟨_, hread, ?_⟩
  have hexponent : (0 : Int) - (digits.drop (leading.toNat + 1)).length =
      leading + 1 - digits.length := by
    rw [List.length_drop]
    omega
  rw [Decimal.value, hexponent]

/-- The mantissa of a layout with an exponent. -/
def mantissa : List Char → List Char
  | [] => []
  | [d] => [d]
  | d :: more => d :: '.' :: more

/-- The exponent part of a layout. -/
def exponentPart (leading : Int) : List Char :=
  'e' :: (if leading < 0 then '-' else '+') :: padLeft 2 (Nat.toDigits 10 leading.natAbs)

theorem readExponent?_exponentPart (leading : Int) :
    readExponent? (exponentPart leading) = some leading := by
  have hall : AllDigits (padLeft 2 (Nat.toDigits 10 leading.natAbs)) :=
    (allDigits_replicate_zero _).append (allDigits_toDigits leading.natAbs)
  have hvalue : Nat.ofDigitChars 10 (padLeft 2 (Nat.toDigits 10 leading.natAbs)) 0 =
      leading.natAbs := by
    rw [padLeft, Nat.ofDigitChars_append, Nat.ofDigitChars_replicate_zero, Nat.mul_zero,
      Nat.ofDigitChars_toDigits (by decide) (by decide)]
  have hne : padLeft 2 (Nat.toDigits 10 leading.natAbs) ≠ [] :=
    List.append_ne_nil_of_right_ne_nil _ Nat.toDigits_ne_nil
  by_cases hneg : leading < 0 <;>
    simp only [exponentPart, hneg, if_true, if_false, readExponent?, splitSign,
      mapM_asciiDigit? hall, Option.bind_eq_bind, Option.bind_some, ofDigits_map, hvalue, true_or,
      ne_eq, List.map_eq_nil_iff, hne, not_false_eq_true, and_self, Bool.false_eq_true,
      Option.pure_def, Option.some.injEq] <;>
    omega

/-- The digits of a layout with an exponent. -/
theorem denotes_exponent {digits : List Char} (hne : digits ≠ []) (hdigits : AllDigits digits)
    (leading : Int) : Denotes (mantissa digits ++ exponentPart leading) digits leading := by
  have hexponent := readExponent?_exponentPart leading
  have hmark : ∀ c ∈ (exponentPart leading).head?, c = 'e' := by
    simp [exponentPart]
  have htail : ∀ c ∈ (exponentPart leading).head?, c.isDigit = false := fun c hc ↦ by
    rw [hmark c hc]
    rfl
  match digits, hne, hdigits with
  | [c], _, hdigits =>
    have hpoint : ∀ c ∈ (exponentPart leading).head?, c ≠ '.' := fun c hc ↦ by
      rw [hmark c hc]
      decide
    refine ⟨_, readDecimal?_whole [c] _ hdigits (by simp) htail hpoint hexponent, ?_⟩
    simp [Decimal.value]
  | c :: d :: more, _, hdigits =>
    have hread := readDecimal?_point [c] (d :: more) _
      (fun e he ↦ hdigits e (by simp_all)) (fun e he ↦ hdigits e (List.mem_cons_of_mem c he))
      (by simp) htail hexponent
    refine ⟨_, hread, ?_⟩
    have hplace : leading - ((d :: more).length : Int) =
        leading + 1 - ((c :: d :: more).length : Int) := by
      simp only [List.length_cons]
      push_cast
      ring
    rw [Decimal.value, hplace]
    rfl

/-- The four forms of a layout. -/
theorem layout_cases (digits : List Char) (leading : Int) :
    (leading < 0 ∧
      layout digits leading = '0' :: '.' :: List.replicate (leading.natAbs - 1) '0' ++ digits) ∨
    (0 ≤ leading ∧ digits.length ≤ leading.toNat + 1 ∧ layout digits leading =
      digits ++ List.replicate (leading.toNat + 1 - digits.length) '0' ++ ['.', '0']) ∨
    (0 ≤ leading ∧ ¬digits.length ≤ leading.toNat + 1 ∧ layout digits leading =
      digits.take (leading.toNat + 1) ++ '.' :: digits.drop (leading.toNat + 1)) ∨
    layout digits leading = mantissa digits ++ exponentPart leading := by
  unfold layout
  by_cases hsmall : -4 ≤ leading ∧ leading < 0
  · exact .inl ⟨hsmall.2, by rw [if_pos hsmall]⟩
  · rw [if_neg hsmall]
    by_cases hmiddle : 0 ≤ leading ∧ leading < 16
    · rw [if_pos hmiddle]
      by_cases hshort : digits.length ≤ leading.toNat + 1
      · exact .inr (.inl ⟨hmiddle.1, hshort, by simp only [if_pos hshort]⟩)
      · exact .inr (.inr (.inl ⟨hmiddle.1, hshort, by simp only [if_neg hshort]⟩))
    · rw [if_neg hmiddle]
      exact .inr (.inr (.inr rfl))

/-- Every layout of some digits denotes them with the leading digit at its place. -/
theorem denotes_layout {digits : List Char} (hne : digits ≠ []) (hdigits : AllDigits digits)
    (leading : Int) : Denotes (layout digits leading) digits leading := by
  rcases layout_cases digits leading with
    ⟨hneg, hform⟩ | ⟨hpos, hshort, hform⟩ | ⟨hpos, hlong, hform⟩ | hform <;> rw [hform]
  · exact denotes_below_one hdigits hneg
  · exact denotes_integral hdigits hpos hshort
  · exact denotes_split hne hdigits hpos hlong
  · exact denotes_exponent hne hdigits leading

/-- The characters of a layout may stand in a number, and one of them is a point or an exponent
mark. -/
theorem numeric_layout {digits : List Char} (hdigits : AllDigits digits) (leading : Int) :
    (∀ c ∈ layout digits leading, Json.isNumeric c = true) ∧
      ('.' ∈ layout digits leading ∨ 'e' ∈ layout digits leading) := by
  have hdigit {c : Char} (hc : c.isDigit = true) : Json.isNumeric c = true := by
    have hascii : Text.isAsciiDigit c = true := by
      simpa [Char.isDigit, Text.isAsciiDigit, Char.le_def] using hc
    simp [Json.isNumeric, hascii]
  have hzeros (n : Nat) {c : Char} (hc : c ∈ List.replicate n '0') : Json.isNumeric c = true :=
    hdigit (allDigits_replicate_zero n c hc)
  rcases layout_cases digits leading with
    ⟨-, hform⟩ | ⟨-, -, hform⟩ | ⟨-, -, hform⟩ | hform <;> rw [hform]
  · refine ⟨fun c hc ↦ ?_, .inl (by simp)⟩
    simp only [List.cons_append, List.mem_cons, List.mem_append] at hc
    rcases hc with rfl | rfl | hc | hc
    · decide
    · decide
    · exact hzeros _ hc
    · exact hdigit (hdigits c hc)
  · refine ⟨fun c hc ↦ ?_, .inl (by simp)⟩
    simp only [List.mem_append, List.mem_cons, List.not_mem_nil, or_false] at hc
    rcases hc with (hc | hc) | rfl | rfl
    · exact hdigit (hdigits c hc)
    · exact hzeros _ hc
    · decide
    · decide
  · refine ⟨fun c hc ↦ ?_, .inl (by simp)⟩
    simp only [List.mem_append, List.mem_cons] at hc
    rcases hc with hc | rfl | hc
    · exact hdigit (hdigits c (List.mem_of_mem_take hc))
    · decide
    · exact hdigit (hdigits c (List.mem_of_mem_drop hc))
  · refine ⟨fun c hc ↦ ?_, .inr (by simp [exponentPart])⟩
    rcases List.mem_append.mp hc with hc | hc
    · unfold mantissa at hc
      split at hc
      · simp at hc
      · exact hdigit (hdigits c hc)
      · simp only [List.mem_cons] at hc
        rcases hc with rfl | rfl | hc
        · exact hdigit (hdigits c (by simp))
        · decide
        · exact hdigit (hdigits c (by simp [hc]))
    · simp only [exponentPart, padLeft, List.mem_cons, List.mem_append] at hc
      rcases hc with rfl | rfl | hc | hc
      · decide
      · split_ifs <;> decide
      · exact hzeros _ hc
      · exact hdigit (allDigits_toDigits _ c hc)

/-- A layout starts with a digit. -/
theorem head?_layout {digits : List Char} (hne : digits ≠ []) (hdigits : AllDigits digits)
    (leading : Int) : ∃ c ∈ (layout digits leading).head?, c.isDigit = true := by
  obtain ⟨c, more, rfl⟩ := List.exists_cons_of_ne_nil hne
  have hc : c.isDigit = true := hdigits c List.mem_cons_self
  rcases layout_cases (c :: more) leading with
    ⟨-, hform⟩ | ⟨-, -, hform⟩ | ⟨-, -, hform⟩ | hform <;> rw [hform]
  · exact ⟨'0', rfl, rfl⟩
  · exact ⟨c, rfl, hc⟩
  · exact ⟨c, rfl, hc⟩
  · cases more <;> exact ⟨c, rfl, hc⟩

/-- Dropping zeros from the end of some digits is undone by writing them again. -/
theorem dropTrailingZeros_append (digits : List Char) :
    ∃ n, digits = dropTrailingZeros digits ++ List.replicate n '0' := by
  refine ⟨(digits.reverse.takeWhile (· = '0')).length, ?_⟩
  have hzeros : digits.reverse.takeWhile (· = '0') =
      List.replicate (digits.reverse.takeWhile (· = '0')).length '0' := by
    apply List.eq_replicate_of_mem
    intro c hc
    simpa using List.mem_takeWhile_imp hc
  have hsplit := congrArg List.reverse
    (List.takeWhile_append_dropWhile (p := (· = '0')) (l := digits.reverse))
  rw [List.reverse_append, List.reverse_reverse] at hsplit
  rw [dropTrailingZeros, ← List.reverse_replicate, ← hzeros]
  exact hsplit.symm

/-! ## The text of a number -/

/-- The text of a number without its sign. -/
def body (x : Finite64) : List Char :=
  if x.significand = 0 then ['0', '.', '0']
  else layout (dropTrailingZeros (Nat.toDigits 10 x.shortestDecimal.digits))
    (x.shortestDecimal.exponent + (Nat.toDigits 10 x.shortestDecimal.digits).length - 1)

theorem toList_text (x : Finite64) :
    x.text.toList = if x.negative then '-' :: x.body else x.body := by
  rw [text, String.toList_ofList]
  rfl

theorem digits_shortestDecimal_ne_zero {x : Finite64} (hx : x.significand ≠ 0) :
    x.shortestDecimal.digits ≠ 0 := by
  intro hzero
  have hpos := (lower_pos hx).trans_le (near_shortestDecimal hx).lower_le
  rw [Decimal.value, hzero, Nat.cast_zero, zero_mul] at hpos
  exact lt_irrefl 0 hpos

/-- The digits that the layout of a number starts from. -/
theorem digits_of_body {x : Finite64} (hx : x.significand ≠ 0) :
    dropTrailingZeros (Nat.toDigits 10 x.shortestDecimal.digits) ≠ [] ∧
      AllDigits (dropTrailingZeros (Nat.toDigits 10 x.shortestDecimal.digits)) := by
  obtain ⟨zeros, hzeros⟩ := dropTrailingZeros_append (Nat.toDigits 10 x.shortestDecimal.digits)
  constructor
  · intro hnil
    have hread := Nat.ofDigitChars_toDigits (b := 10) (n := x.shortestDecimal.digits) (by decide)
      (by decide)
    rw [hzeros, hnil, List.nil_append, Nat.ofDigitChars_replicate_zero, Nat.mul_zero] at hread
    exact digits_shortestDecimal_ne_zero hx hread.symm
  · intro c hc
    apply allDigits_toDigits x.shortestDecimal.digits
    rw [hzeros]
    exact List.mem_append_left _ hc

/-- The text of a number denotes its shortest decimal number. -/
theorem readDecimal?_body {x : Finite64} (hx : x.significand ≠ 0) :
    ∃ d, readDecimal? x.body = some d ∧ d.value = x.shortestDecimal.value := by
  obtain ⟨hne, hdigits⟩ := digits_of_body hx
  obtain ⟨zeros, hzeros⟩ := dropTrailingZeros_append (Nat.toDigits 10 x.shortestDecimal.digits)
  obtain ⟨d, hread, hvalue⟩ := denotes_layout hne hdigits
    (x.shortestDecimal.exponent + (Nat.toDigits 10 x.shortestDecimal.digits).length - 1)
  refine ⟨d, by rw [body, if_neg hx, hread], ?_⟩
  set short := dropTrailingZeros (Nat.toDigits 10 x.shortestDecimal.digits)
  have hlength : (Nat.toDigits 10 x.shortestDecimal.digits).length = short.length + zeros := by
    rw [hzeros, List.length_append, List.length_replicate]
  have hnumber : x.shortestDecimal.digits = 10 ^ zeros * Nat.ofDigitChars 10 short 0 := by
    conv_lhs => rw [← Nat.ofDigitChars_toDigits (b := 10) (n := x.shortestDecimal.digits)
      (by decide) (by decide)]
    rw [hzeros, Nat.ofDigitChars_append, Nat.ofDigitChars_replicate_zero]
  have hexponent : x.shortestDecimal.exponent + (Nat.toDigits 10 x.shortestDecimal.digits).length
      - 1 + 1 - short.length = x.shortestDecimal.exponent + zeros := by
    rw [hlength]
    push_cast
    ring
  rw [hvalue, hexponent, Decimal.value, zpow_add₀ (by norm_num), zpow_natCast]
  conv_rhs => rw [hnumber]
  push_cast
  ring

/-- Numbers whose texts without their signs are the same have the same magnitude. -/
theorem fields_eq_of_body_eq {x y : Finite64} (h : x.body = y.body) :
    x.exponent = y.exponent ∧ x.fraction = y.fraction := by
  have hnonzero {x y : Finite64} (hx : x.significand = 0) (hy : y.significand ≠ 0) :
      x.body ≠ y.body := by
    intro hbody
    obtain ⟨d, hread, hvalue⟩ := readDecimal?_body hy
    rw [← hbody, body, if_pos hx] at hread
    have hzero : d = ⟨0, -1⟩ := (Option.some.inj hread).symm
    have hpos := (lower_pos hy).trans_le (near_shortestDecimal hy).lower_le
    rw [← hvalue, hzero, Decimal.value, Nat.cast_zero, zero_mul] at hpos
    exact lt_irrefl 0 hpos
  have hfields {x : Finite64} (hx : x.significand = 0) :
      x.exponent = (0 : Fin 2047) ∧ x.fraction = (0 : Fin 4503599627370496) := by
    unfold significand at hx
    split_ifs at hx with hexponent
    · exact ⟨Fin.ext hexponent, Fin.ext hx⟩
    · omega
  by_cases hx : x.significand = 0 <;> by_cases hy : y.significand = 0
  · rw [(hfields hx).1, (hfields hx).2, (hfields hy).1, (hfields hy).2]
    exact ⟨rfl, rfl⟩
  · exact absurd h (hnonzero hx hy)
  · exact absurd h.symm (hnonzero hy hx)
  · obtain ⟨d, hread, hvalue⟩ := readDecimal?_body hx
    obtain ⟨e, hother, hsame⟩ := readDecimal?_body hy
    rw [h, hother, Option.some.injEq] at hread
    have hnear := near_shortestDecimal hx
    rw [← hvalue, ← hread, hsame] at hnear
    exact fields_eq_of_near hnear (near_shortestDecimal hy)

theorem head?_body (x : Finite64) : ∃ c ∈ x.body.head?, c.isDigit = true := by
  unfold body
  split_ifs with hx
  · exact ⟨'0', rfl, rfl⟩
  · exact head?_layout (digits_of_body hx).1 (digits_of_body hx).2 _

theorem numeric_body (x : Finite64) :
    (∀ c ∈ x.body, Json.isNumeric c = true) ∧ ('.' ∈ x.body ∨ 'e' ∈ x.body) := by
  unfold body
  split_ifs with hx
  · exact ⟨List.all_eq_true.mp rfl, .inl (by decide)⟩
  · exact numeric_layout (digits_of_body hx).2 _

/-- The characters of the text of a number may stand in a number, and one of them is a point or an
exponent mark. -/
theorem numeric_text (x : Finite64) :
    (∀ c ∈ x.text.toList, Json.isNumeric c = true) ∧
      ('.' ∈ x.text.toList ∨ 'e' ∈ x.text.toList) := by
  obtain ⟨hall, hmark⟩ := numeric_body x
  rw [toList_text]
  split_ifs
  · refine ⟨fun c hc ↦ ?_, hmark.imp (List.mem_cons_of_mem _) (List.mem_cons_of_mem _)⟩
    rcases List.mem_cons.mp hc with rfl | hc
    · decide
    · exact hall c hc
  · exact ⟨hall, hmark⟩

/-- Finite numbers with the same text are the same, and so are the signs of zeros. -/
theorem text_injective {x y : Finite64} (h : x.text.toList = y.text.toList) : x = y := by
  have hsign {x y : Finite64} (hx : x.negative = true) (hy : y.negative = false) :
      x.text.toList ≠ y.text.toList := by
    intro htext
    obtain ⟨c, hc, hdigit⟩ := head?_body y
    rw [toList_text, toList_text, hx, hy] at htext
    simp only [if_true, Bool.false_eq_true, if_false] at htext
    rw [← htext] at hc
    obtain rfl : '-' = c := by simpa using hc
    exact absurd hdigit (by decide)
  have hnegative : x.negative = y.negative := by
    cases hx : x.negative <;> cases hy : y.negative
    · rfl
    · exact absurd h.symm (hsign hy hx)
    · exact absurd h (hsign hx hy)
    · rfl
  have hbody : x.body = y.body := by
    rw [toList_text, toList_text, hnegative] at h
    split_ifs at h
    · exact (List.cons.inj h).2
    · exact h
  obtain ⟨hexponent, hfraction⟩ := fields_eq_of_body_eq hbody
  cases x
  cases y
  simp_all

end Finite64

end EntityCompiler
