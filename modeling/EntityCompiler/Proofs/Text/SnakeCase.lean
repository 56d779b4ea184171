import EntityCompiler.Entity.Build
import EntityCompiler.Text.SnakeCase
import Mathlib

/-!
# Words of snake-case names

The snake-case form of a name in ASCII is the name in lower case with an underscore wherever a word ends,
which the three characters around each place decide.  Two passes over the name find these places because
neither pass changes what the other one looks for.
-/

namespace EntityCompiler

namespace Text

variable {a b c : Char} {text rest other : List Char}

/-! ## Characters -/

/-- Whether a text consists of ASCII characters. -/
def IsAscii (text : List Char) : Prop :=
  ∀ c ∈ text, c.toNat < 0x80

theorem isAsciiUpper_eq_isUpper (c : Char) : isAsciiUpper c = c.isUpper := by
  rw [Bool.eq_iff_iff]
  simp [isAsciiUpper, Char.isUpper, Char.le_def]

/-- A small letter or digit is no capital. -/
theorem isAsciiUpper_eq_false (h : (isAsciiLower c || isAsciiDigit c) = true) :
    isAsciiUpper c = false := by
  simp only [isAsciiLower, isAsciiDigit, Bool.or_eq_true, Bool.and_eq_true, decide_eq_true_eq,
    Char.le_def, UInt32.le_iff_toNat_le] at h
  rw [isAsciiUpper, Bool.and_eq_false_iff, decide_eq_false_iff_not, decide_eq_false_iff_not]
  simp only [Char.le_def, UInt32.le_iff_toNat_le]
  -- The letters follow each other in two blocks, with the digits before both.
  rcases h with ⟨hlower, -⟩ | ⟨-, hdigit⟩
  · exact .inr fun hupper ↦ absurd (hlower.trans hupper) (by decide)
  · exact .inl fun hupper ↦ absurd (hupper.trans hdigit) (by decide)

theorem lowerChar_of_ascii (h : c.toNat < 0x80) : lowerChar c = [c.toLower] := by
  have hbounds : ('A' ≤ c ∧ c ≤ 'Z') ↔ c.isUpper = true := by
    rw [← isAsciiUpper_eq_isUpper, isAsciiUpper, Bool.and_eq_true, decide_eq_true_iff, decide_eq_true_iff]
  rw [lowerChar, if_pos h]
  by_cases hupper : c.isUpper = true
  · rw [if_pos (hbounds.mpr hupper), Char.toLower_eq_of_isUpper hupper]
  · rw [if_neg (mt hbounds.mp hupper), Char.toLower_eq_of_not_isUpper hupper]

theorem toNat_toLower_lt (h : c.toNat < 0x80) : c.toLower.toNat < 0x80 := by
  by_cases hupper : c.isUpper = true
  · have hlast : c.toNat ≤ 90 := by
      simp only [Char.isUpper, ge_iff_le, decide_eq_true_eq, UInt32.le_iff_toNat_le] at hupper
      exact hupper.2
    rw [Char.toLower_eq_of_isUpper hupper, Char.toNat_ofNat, if_pos (.inl (by omega))]
    omega
  · rwa [Char.toLower_eq_of_not_isUpper hupper]

/-- In lower case, only an underscore is one. -/
theorem toLower_eq_underscore_iff : c.toLower = '_' ↔ c = '_' := by
  constructor
  · intro h
    have halpha : c.isAlpha = false := by
      rw [← Char.isLower_toLower_eq_isAlpha, h]
      rfl
    have hupper : ¬c.isUpper = true := by
      rw [Char.isAlpha, Bool.or_eq_false_iff] at halpha
      simp [halpha.1]
    rwa [Char.toLower_eq_of_not_isUpper hupper] at h
  · rintro rfl
    rfl

theorem lowerAfter_of_ascii (h : IsAscii text) (before : List Char) :
    lowerAfter before text = text.map Char.toLower := by
  induction text generalizing before with
  | nil => rfl
  | cons c rest ih =>
    obtain ⟨hc, hrest⟩ := List.forall_mem_cons.mp h
    have hsigma : c.toNat ≠ 0x3A3 := by omega
    rw [lowerAfter, if_neg hsigma, lowerChar_of_ascii hc, ih hrest]
    rfl

/-! ## Ends of words -/

/-- Whether a word of a text ends at a place: at a small letter or digit before a capital, or at a capital
before another one that a small letter follows. -/
def endsWord (text : List Char) (i : Nat) : Bool :=
  match text[i]?, text[i + 1]? with
  | some a, some b =>
    (isAsciiLower a || isAsciiDigit a) && isAsciiUpper b ||
      isAsciiUpper a && isAsciiUpper b && text[i + 2]?.any isAsciiLower
  | _, _ => false

/-- A text in lower case with an underscore after each place at which a word ends. -/
def underscored (text : List Char) : List Char :=
  text.zipIdx.flatMap fun (c, i) ↦ if endsWord text i then [c.toLower, '_'] else [c.toLower]

theorem underscored_cons (a : Char) (rest : List Char) :
    underscored (a :: rest) =
      (if endsWord (a :: rest) 0 then [a.toLower, '_'] else [a.toLower]) ++ underscored rest := by
  rw [underscored, List.zipIdx_cons, List.flatMap_cons, List.zipIdx_succ, List.flatMap_map]
  rfl

/-! ## Passes -/

/-- Whether the first pass breaks a text after its first character. -/
def beforeCapital (a : Char) (rest : List Char) : Bool :=
  (isAsciiLower a || isAsciiDigit a) && rest[0]?.any isAsciiUpper

/-- Whether the second pass breaks a text after its first character. -/
def endsRun (a : Char) (rest : List Char) : Bool :=
  isAsciiUpper a && rest[0]?.any isAsciiUpper && rest[1]?.any isAsciiLower

theorem endsWord_cons_zero (a : Char) (rest : List Char) :
    endsWord (a :: rest) 0 = (beforeCapital a rest || endsRun a rest) := by
  cases rest with
  | nil => simp [endsWord, beforeCapital, endsRun]
  | cons b rest => rfl

theorem breakBeforeCapital_cons_of_upper (h : isAsciiUpper b = true) (rest : List Char) :
    breakBeforeCapital (b :: rest) = b :: breakBeforeCapital rest := by
  have hother : (isAsciiLower b || isAsciiDigit b) = false := by
    by_contra hne
    rw [Bool.not_eq_false] at hne
    rw [isAsciiUpper_eq_false hne] at h
    exact Bool.false_ne_true h
  cases rest with
  | nil => rfl
  | cons c rest => simp [breakBeforeCapital, hother]

/-- A break skips a capital, after which there is none, so that no match hides another one. -/
theorem breakBeforeCapital_cons (a : Char) (rest : List Char) :
    breakBeforeCapital (a :: rest) =
      (if beforeCapital a rest then [a, '_'] else [a]) ++ breakBeforeCapital rest := by
  cases rest with
  | nil => simp [breakBeforeCapital, beforeCapital]
  | cons b rest =>
    have hbefore : beforeCapital a (b :: rest) = ((isAsciiLower a || isAsciiDigit a) && isAsciiUpper b) :=
      rfl
    rw [hbefore, breakBeforeCapital]
    by_cases h : ((isAsciiLower a || isAsciiDigit a) && isAsciiUpper b) = true
    · rw [if_pos h, if_pos h, breakBeforeCapital_cons_of_upper (Bool.and_eq_true_iff.mp h).2]
      rfl
    · rw [if_neg h, if_neg h]
      rfl

theorem breakCapitalRun_cons_of_not_upper (h : isAsciiUpper a = false) (rest : List Char) :
    breakCapitalRun (a :: rest) = a :: breakCapitalRun rest := by
  rcases rest with _ | ⟨b, _ | ⟨c, rest⟩⟩
  · rfl
  · rfl
  · simp [breakCapitalRun, h]

theorem breakCapitalRun_cons_cons_of_not_upper (h : isAsciiUpper c = false) (b : Char)
    (rest : List Char) : breakCapitalRun (b :: c :: rest) = b :: c :: breakCapitalRun rest := by
  cases rest with
  | nil => rfl
  | cons d rest =>
    have hrest := breakCapitalRun_cons_of_not_upper h (d :: rest)
    simp [breakCapitalRun, h, hrest]

/-- A break skips two characters, after which there is none. -/
theorem breakCapitalRun_cons (a : Char) (rest : List Char) :
    breakCapitalRun (a :: rest) =
      (if endsRun a rest then [a, '_'] else [a]) ++ breakCapitalRun rest := by
  rcases rest with _ | ⟨b, _ | ⟨c, rest⟩⟩
  · simp [breakCapitalRun, endsRun]
  · simp [breakCapitalRun, endsRun]
  · have hends : endsRun a (b :: c :: rest) = (isAsciiUpper a && isAsciiUpper b && isAsciiLower c) := rfl
    rw [hends, breakCapitalRun]
    by_cases h : (isAsciiUpper a && isAsciiUpper b && isAsciiLower c) = true
    · have hlower : isAsciiLower c = true := (Bool.and_eq_true_iff.mp h).2
      have hc : isAsciiUpper c = false := isAsciiUpper_eq_false (by rw [hlower]; rfl)
      rw [if_pos h, if_pos h, breakCapitalRun_cons_cons_of_not_upper hc]
      rfl
    · rw [if_neg h, if_neg h]
      rfl

theorem getElem?_zero_breakBeforeCapital (text : List Char) : (breakBeforeCapital text)[0]? = text[0]? := by
  cases text with
  | nil => rfl
  | cons a rest =>
    rw [breakBeforeCapital_cons]
    cases beforeCapital a rest <;> rfl

/-- The first pass does not change what the second one looks for. -/
theorem endsRun_breakBeforeCapital (a : Char) (rest : List Char) :
    endsRun a (breakBeforeCapital rest) = endsRun a rest := by
  cases rest with
  | nil => rfl
  | cons b rest =>
    by_cases hb : isAsciiUpper b = true
    · have hkept : beforeCapital b rest = false := by
        rw [beforeCapital, Bool.and_eq_false_iff]
        refine .inl (Bool.eq_false_iff.mpr fun hsmall ↦ ?_)
        rw [isAsciiUpper_eq_false hsmall] at hb
        cases hb
      -- As `b` stays in front of what follows it, both tests see the same two characters.
      have hnext : (b :: breakBeforeCapital rest)[1]? = (b :: rest)[1]? :=
        getElem?_zero_breakBeforeCapital rest
      rw [breakBeforeCapital_cons, hkept, endsRun, endsRun, if_neg Bool.false_ne_true]
      change (_ && _ && ((b :: breakBeforeCapital rest)[1]?).any isAsciiLower) = _
      rw [hnext]
      rfl
    · have hnever (other : List Char) (hother : other[0]? = some b) : endsRun a other = false := by
        simp [endsRun, hother, hb]
      rw [hnever (b :: rest) rfl, hnever _ (getElem?_zero_breakBeforeCapital (b :: rest))]

/-- Both passes together make a break at each end of a word. -/
theorem map_toLower_breakCapitalRun (text : List Char) :
    (breakCapitalRun (breakBeforeCapital text)).map Char.toLower = underscored text := by
  induction text with
  | nil => rfl
  | cons a rest ih =>
    rw [breakBeforeCapital_cons, underscored_cons, endsWord_cons_zero]
    by_cases hcapital : beforeCapital a rest = true
    · have hsmall : isAsciiUpper a = false := isAsciiUpper_eq_false (Bool.and_eq_true_iff.mp hcapital).1
      have hunderscore : isAsciiUpper '_' = false := by decide
      rw [hcapital, Bool.true_or, if_pos rfl, if_pos rfl, List.cons_append, List.cons_append,
        List.nil_append, breakCapitalRun_cons_of_not_upper hsmall,
        breakCapitalRun_cons_of_not_upper hunderscore, List.map_cons, List.map_cons, ih]
      rfl
    · rw [Bool.eq_false_iff.mpr hcapital, Bool.false_or, if_neg Bool.false_ne_true, List.cons_append,
        List.nil_append, breakCapitalRun_cons, endsRun_breakBeforeCapital, List.map_append, ih]
      cases endsRun a rest <;> rfl

theorem isAscii_break (ha : a.toNat < 0x80) (hrest : IsAscii rest) (breaks : Bool) :
    IsAscii ((if breaks then [a, '_'] else [a]) ++ rest) := by
  cases breaks with
  | true => exact List.forall_mem_cons.mpr ⟨ha, List.forall_mem_cons.mpr ⟨by decide, hrest⟩⟩
  | false => exact List.forall_mem_cons.mpr ⟨ha, hrest⟩

theorem isAscii_breakBeforeCapital (h : IsAscii text) : IsAscii (breakBeforeCapital text) := by
  induction text with
  | nil => exact h
  | cons a rest ih =>
    obtain ⟨ha, hrest⟩ := List.forall_mem_cons.mp h
    rw [breakBeforeCapital_cons]
    exact isAscii_break ha (ih hrest) _

theorem isAscii_breakCapitalRun (h : IsAscii text) : IsAscii (breakCapitalRun text) := by
  induction text with
  | nil => exact h
  | cons a rest ih =>
    obtain ⟨ha, hrest⟩ := List.forall_mem_cons.mp h
    rw [breakCapitalRun_cons]
    exact isAscii_break ha (ih hrest) _

theorem toList_snakeCase {name : String} (h : IsAscii name.toList) :
    (snakeCase name).toList = underscored name.toList := by
  have hbroken : IsAscii (breakCapitalRun (breakBeforeCapital name.toList)) :=
    isAscii_breakCapitalRun (isAscii_breakBeforeCapital h)
  rw [snakeCase, lower, String.toList_ofList, String.toList_ofList, lowerAfter_of_ascii hbroken,
    map_toLower_breakCapitalRun]

/-! ## Underscores -/

theorem filter_underscored (text : List Char) :
    (underscored text).filter (· ≠ '_') = (text.filter (· ≠ '_')).map Char.toLower := by
  induction text with
  | nil => rfl
  | cons a rest ih =>
    rw [underscored_cons, List.filter_append, ih]
    cases endsWord (a :: rest) 0 <;> by_cases ha : a = '_' <;> simp [ha, toLower_eq_underscore_iff]

theorem head?_underscored (text : List Char) :
    (underscored text).head? = text.head?.map Char.toLower := by
  cases text with
  | nil => rfl
  | cons a rest =>
    rw [underscored_cons]
    cases endsWord (a :: rest) 0 <;> rfl

theorem getLast?_underscored (text : List Char) :
    (underscored text).getLast? = text.getLast?.map Char.toLower := by
  induction text with
  | nil => rfl
  | cons a rest ih =>
    rw [underscored_cons, List.getLast?_append, ih]
    cases rest with
    | nil => rfl
    | cons b rest =>
      rw [List.getLast?_cons_cons, List.getLast?_eq_some_getLast (List.cons_ne_nil b rest)]
      rfl

/-- A name without underscores gets none at its start. -/
theorem head?_underscored_ne (h : '_' ∉ text) : (underscored text).head? ≠ some '_' := by
  rw [head?_underscored]
  intro hhead
  obtain ⟨c, hc, hlower⟩ := Option.map_eq_some_iff.mp hhead
  obtain rfl := toLower_eq_underscore_iff.mp hlower
  exact h (List.mem_of_mem_head? hc)

/-- A name without underscores gets none at its end. -/
theorem getLast?_underscored_ne (h : '_' ∉ text) : (underscored text).getLast? ≠ some '_' := by
  rw [getLast?_underscored]
  intro hlast
  obtain ⟨c, hc, hlower⟩ := Option.map_eq_some_iff.mp hlast
  obtain rfl := toLower_eq_underscore_iff.mp hlower
  exact h (List.mem_of_getLast? hc)

/-- A name without underscores gets no two of them in a row. -/
theorem not_infix_underscored (h : '_' ∉ text) : ¬['_', '_'] <:+: underscored text := by
  induction text with
  | nil => simp [underscored]
  | cons a rest ih =>
    have hrest : '_' ∉ rest := fun hmem ↦ h (List.mem_cons_of_mem a hmem)
    have ha (more : List Char) : ¬['_', '_'] <+: a.toLower :: more := by
      intro hprefix
      have hlower := (List.cons_prefix_cons.mp hprefix).1.symm
      exact h (toLower_eq_underscore_iff.mp hlower ▸ List.mem_cons_self)
    have hnext : ¬['_', '_'] <+: '_' :: underscored rest := by
      intro hprefix
      obtain ⟨more, hmore⟩ := (List.cons_prefix_cons.mp hprefix).2
      exact head?_underscored_ne hrest (by rw [← hmore]; rfl)
    rw [underscored_cons]
    cases endsWord (a :: rest) 0 with
    | true =>
      rw [if_pos rfl, List.cons_append, List.cons_append, List.nil_append, List.infix_cons_iff,
        List.infix_cons_iff]
      exact not_or.mpr ⟨ha _, not_or.mpr ⟨hnext, ih hrest⟩⟩
    | false =>
      rw [if_neg Bool.false_ne_true, List.cons_append, List.nil_append, List.infix_cons_iff]
      exact not_or.mpr ⟨ha _, ih hrest⟩

/-! ## Names in snake case -/

theorem mem_underscored (h : c ∈ underscored text) : c = '_' ∨ ∃ a ∈ text, c = a.toLower := by
  obtain ⟨⟨a, i⟩, hmem, hc⟩ := List.mem_flatMap.mp h
  have ha : a ∈ text := (List.mem_zipIdx' hmem).2 ▸ List.getElem_mem _
  change c ∈ if endsWord text i then [a.toLower, '_'] else [a.toLower] at hc
  by_cases hends : endsWord text i = true
  · rw [if_pos hends] at hc
    rcases List.mem_pair.mp hc with rfl | rfl
    · exact .inr ⟨a, ha, rfl⟩
    · exact .inl rfl
  · rw [if_neg hends] at hc
    exact .inr ⟨a, ha, List.mem_singleton.mp hc⟩

theorem isAscii_underscored (h : IsAscii text) : IsAscii (underscored text) := by
  intro c hc
  rcases mem_underscored hc with rfl | ⟨a, ha, rfl⟩
  · decide
  · exact toNat_toLower_lt (h a ha)

theorem isAsciiUpper_of_mem_underscored (h : c ∈ underscored text) : isAsciiUpper c = false := by
  rcases mem_underscored h with rfl | ⟨a, -, rfl⟩
  · decide
  · rw [isAsciiUpper_eq_isUpper]
    exact Char.isUpper_toLower_eq_false a

theorem toLower_of_not_upper (h : isAsciiUpper c = false) : c.toLower = c := by
  apply Char.toLower_eq_of_not_isUpper
  rw [← isAsciiUpper_eq_isUpper, h]
  exact Bool.false_ne_true

/-- Without capitals there are no ends of words. -/
theorem underscored_of_not_upper (h : ∀ c ∈ text, isAsciiUpper c = false) : underscored text = text := by
  induction text with
  | nil => rfl
  | cons a rest ih =>
    obtain ⟨ha, hrest⟩ := List.forall_mem_cons.mp h
    have hends : endsWord (a :: rest) 0 = false := by
      cases rest with
      | nil => rfl
      | cons b rest =>
        have hb : isAsciiUpper b = false := hrest b List.mem_cons_self
        simp [endsWord_cons_zero, beforeCapital, endsRun, hb]
    rw [underscored_cons, hends, toLower_of_not_upper ha, ih hrest]
    rfl

/-! ## Names with the same words -/

/-- Whether two texts have the same words: they are equal in lower case, and words end at the same places. -/
structure SameWords (text other : List Char) : Prop where
  letters : text.map Char.toLower = other.map Char.toLower
  ends : ∀ i, endsWord text i = endsWord other i

theorem sameWords_cons_iff (a b : Char) (rest more : List Char) :
    SameWords (a :: rest) (b :: more) ↔ a.toLower = b.toLower ∧
      endsWord (a :: rest) 0 = endsWord (b :: more) 0 ∧ SameWords rest more := by
  constructor
  · intro h
    obtain ⟨hfirst, hrest⟩ := List.cons.inj h.letters
    exact ⟨hfirst, h.ends 0, hrest, fun i ↦ h.ends (i + 1)⟩
  · rintro ⟨hfirst, hends, h⟩
    refine ⟨by rw [List.map_cons, List.map_cons, hfirst, h.letters], fun i ↦ ?_⟩
    cases i with
    | zero => exact hends
    | succ i => exact h.ends i

/-- An underscore shows where a word ends, as there are no others. -/
theorem breaks_inj (hrest : '_' ∉ rest) (hother : '_' ∉ other) (ends ends' : Bool) :
    (if ends then [a, '_'] else [a]) ++ underscored rest =
      (if ends' then [b, '_'] else [b]) ++ underscored other ↔
    a = b ∧ ends = ends' ∧ underscored rest = underscored other := by
  have hleft (more : List Char) : underscored rest ≠ '_' :: more := fun h ↦
    head?_underscored_ne hrest (by rw [h]; rfl)
  have hright (more : List Char) : '_' :: more ≠ underscored other := fun h ↦
    head?_underscored_ne hother (by rw [← h]; rfl)
  cases ends <;> cases ends' <;> simp [hleft, hright]

/-- Names without underscores have the same form exactly when they have the same words. -/
theorem underscored_eq_iff (htext : '_' ∉ text) (hother : '_' ∉ other) :
    underscored text = underscored other ↔ SameWords text other := by
  induction text generalizing other with
  | nil =>
    cases other with
    | nil => exact ⟨fun _ ↦ ⟨rfl, fun _ ↦ rfl⟩, fun _ ↦ rfl⟩
    | cons b more =>
      constructor
      · intro h
        have hhead := head?_underscored (b :: more)
        rw [← h] at hhead
        cases hhead
      · intro h
        cases h.letters
  | cons a rest ih =>
    cases other with
    | nil =>
      constructor
      · intro h
        have hhead := head?_underscored (a :: rest)
        rw [h] at hhead
        cases hhead
      · intro h
        cases h.letters
    | cons b more =>
      have hrest : '_' ∉ rest := fun hmem ↦ htext (List.mem_cons_of_mem a hmem)
      have hmore : '_' ∉ more := fun hmem ↦ hother (List.mem_cons_of_mem b hmem)
      rw [underscored_cons, underscored_cons, sameWords_cons_iff, ← ih hrest hmore]
      exact breaks_inj hrest hmore _ _

end Text

namespace Naming

open Text

variable {name : String}

theorem exists_of_isPascalCase (h : isPascalCase name = true) :
    ∃ first rest, name.toList = first :: rest ∧ isAsciiUpper first = true ∧
      ∀ c ∈ rest, (isLetter c || isAsciiDigit c) = true := by
  unfold isPascalCase at h
  cases hchars : name.toList with
  | nil => simp [hchars] at h
  | cons first rest =>
    rw [hchars, Bool.and_eq_true, List.all_eq_true] at h
    exact ⟨first, rest, rfl, h⟩

/-- The names of entities may be names of columns. -/
theorem isColumnName_of_isPascalCase (h : isPascalCase name = true) : isColumnName name = true := by
  obtain ⟨first, rest, hchars, hfirst, hrest⟩ := exists_of_isPascalCase h
  rw [isColumnName, hchars, Bool.and_eq_true, List.all_eq_true, isLetter, hfirst]
  exact ⟨rfl, fun c hc ↦ by rw [hrest c hc]; rfl⟩

theorem underscore_notMem_of_isPascalCase (h : isPascalCase name = true) : '_' ∉ name.toList := by
  obtain ⟨first, rest, hchars, hfirst, hrest⟩ := exists_of_isPascalCase h
  rw [hchars, List.mem_cons, not_or]
  refine ⟨?_, fun hmem ↦ absurd (hrest _ hmem) (by decide)⟩
  rintro rfl
  exact absurd hfirst (by decide)

theorem isAscii_of_isColumnName (h : isColumnName name = true) : IsAscii name.toList := by
  have hletter {c : Char} (hc : (isLetter c || isAsciiDigit c || c = '_') = true) : c.toNat < 0x80 := by
    simp only [isLetter, isAsciiUpper, isAsciiLower, isAsciiDigit, Bool.or_eq_true, Bool.and_eq_true,
      decide_eq_true_eq, Char.le_def, UInt32.le_iff_toNat_le] at hc
    rcases hc with (((⟨-, hc⟩ | ⟨-, hc⟩) | ⟨-, hc⟩) | rfl)
    · exact hc.trans_lt (by decide)
    · exact hc.trans_lt (by decide)
    · exact hc.trans_lt (by decide)
    · decide
  unfold isColumnName at h
  cases hchars : name.toList with
  | nil => exact nofun
  | cons first rest =>
    rw [hchars, Bool.and_eq_true, List.all_eq_true] at h
    exact List.forall_mem_cons.mpr ⟨hletter (by rw [h.1]; rfl), fun c hc ↦ hletter (h.2 c hc)⟩

theorem snakeCase_eq_iff {other : String} (hname : isPascalCase name = true)
    (hother : isPascalCase other = true) :
    snakeCase name = snakeCase other ↔ SameWords name.toList other.toList := by
  rw [← String.toList_inj, toList_snakeCase (isAscii_of_isColumnName (isColumnName_of_isPascalCase hname)),
    toList_snakeCase (isAscii_of_isColumnName (isColumnName_of_isPascalCase hother)),
    underscored_eq_iff (underscore_notMem_of_isPascalCase hname)
      (underscore_notMem_of_isPascalCase hother)]

/-- The snake-case form of a name is in lower case. -/
theorem toLower_snakeCase (h : isPascalCase name = true) :
    (snakeCase name).toLower = snakeCase name := by
  rw [← String.toList_inj, String.toLower, String.toList_map,
    toList_snakeCase (isAscii_of_isColumnName (isColumnName_of_isPascalCase h))]
  calc _ = (underscored name.toList).map id := List.map_congr_left fun c hc ↦
        toLower_of_not_upper (isAsciiUpper_of_mem_underscored hc)
    _ = underscored name.toList := List.map_id _

end Naming

namespace Text

/-- The snake-case form of a name in ASCII, as the names of entities and columns are, is the name in lower
case with an underscore after each place at which a word ends.  Without underscores it is the name in lower
case without underscores.  That of a name in Pascal case has no underscore at its start or end and no two in
a row, and a name in snake case is its own snake-case form. -/
theorem snakeCase_underscores {name : String} (h : IsAscii name.toList) :
    (snakeCase name).toList = (name.toList.zipIdx.flatMap fun (c, i) ↦
      if endsWord name.toList i then [c.toLower, '_'] else [c.toLower]) ∧
    (snakeCase name).toList.filter (· ≠ '_') = (name.toList.filter (· ≠ '_')).map Char.toLower ∧
    (Naming.isPascalCase name = true → (snakeCase name).toList.head? ≠ some '_' ∧
      (snakeCase name).toList.getLast? ≠ some '_' ∧ ¬['_', '_'] <:+: (snakeCase name).toList) ∧
    snakeCase (snakeCase name) = snakeCase name := by
  have hchars := toList_snakeCase h
  refine ⟨hchars, ?_, fun hpascal ↦ ?_, ?_⟩
  · rw [hchars, filter_underscored]
  · have hnone := Naming.underscore_notMem_of_isPascalCase hpascal
    rw [hchars]
    exact ⟨head?_underscored_ne hnone, getLast?_underscored_ne hnone, not_infix_underscored hnone⟩
  · have hascii : IsAscii (snakeCase name).toList := hchars ▸ isAscii_underscored h
    have hsmall : ∀ c ∈ (snakeCase name).toList, isAsciiUpper c = false := by
      rw [hchars]
      exact fun c ↦ isAsciiUpper_of_mem_underscored
    rw [← String.toList_inj, toList_snakeCase hascii, underscored_of_not_upper hsmall]

/-- A name with runs of capitals, one of which is followed by a digit. -/
theorem snakeCase_underscores_runs :
    let name := "HTTPServerID2Go"
    Naming.isPascalCase name = true ∧ IsAscii name.toList ∧
      (snakeCase name).toList = "http_server_id2_go".toList ∧
      ¬['_', '_'] <:+: (snakeCase name).toList ∧ snakeCase (snakeCase name) = snakeCase name := by
  intro name
  have hpascal : Naming.isPascalCase name = true := by decide
  have hascii : IsAscii name.toList :=
    Naming.isAscii_of_isColumnName (Naming.isColumnName_of_isPascalCase hpascal)
  obtain ⟨hchars, -, hwords, hagain⟩ := snakeCase_underscores hascii
  exact ⟨hpascal, hascii, hchars.trans (by decide), (hwords hpascal).2.2, hagain⟩

end Text

end EntityCompiler
