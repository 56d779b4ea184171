import EntityCompiler.Proofs.Json.Quoted
import EntityCompiler.Proofs.Number.DecimalText

/-!
# Compact texts determine their values

The first character of a compact text tells its kind, a number ends where no numeric character
follows, a quoted text ends at its quote, and items are told apart by commas outside of them.  Hence a
text starts with the compact text of at most one value, and the value of a compact text is unique with
all kinds of numbers told apart.
-/

namespace EntityCompiler.Json

/-! ## Numbers -/

/-- Whether a number in front of a text ends there. -/
def Stops (rest : List Char) : Prop :=
  ∀ c ∈ rest.head?, isNumeric c = false

theorem takeWhile_isNumeric {numeral rest : List Char} (hall : ∀ c ∈ numeral, isNumeric c = true)
    (hrest : Stops rest) : (numeral ++ rest).takeWhile isNumeric = numeral := by
  rw [List.takeWhile_append_of_pos hall]
  cases rest with
  | nil => simp
  | cons c rest => simp [hrest c rfl]

/-- Numerals that start the same text are the same. -/
theorem numeral_append_inj {numeral other rest others : List Char}
    (hnumeral : ∀ c ∈ numeral, isNumeric c = true) (hother : ∀ c ∈ other, isNumeric c = true)
    (hrest : Stops rest) (hothers : Stops others) (h : numeral ++ rest = other ++ others) :
    numeral = other ∧ rest = others := by
  have hsame : numeral = other := by
    rw [← takeWhile_isNumeric hnumeral hrest, h, takeWhile_isNumeric hother hothers]
  subst hsame
  exact ⟨rfl, List.append_cancel_left h⟩

theorem isNumeric_of_mem_ofInt {n : Int} {c : Char} (hc : c ∈ (Numeral.ofInt n).toList) :
    isNumeric c = true := by
  rcases Numeral.mem_toList_ofInt hc with rfl | hdigit
  · decide
  · simp [isNumeric, hdigit]

/-- No integer has the text of a floating-point number. -/
theorem ofInt_ne_text (n : Int) (x : Finite64) : (Numeral.ofInt n).toList ≠ x.text.toList := by
  intro h
  have hinteger {c : Char} (hc : c ∈ x.text.toList) : c = '-' ∨ Text.isAsciiDigit c = true :=
    Numeral.mem_toList_ofInt (h ▸ hc)
  rcases x.numeric_text.2 with hpoint | hexponent
  · exact absurd (hinteger hpoint) (by decide)
  · exact absurd (hinteger hexponent) (by decide)

/-! ## The first character -/

/-- The character that stands for the kind of a value: all numbers share one. -/
def opening : Json → Char
  | .null => 'n'
  | .bool b => if b then 't' else 'f'
  | .int _ => '0'
  | .float _ => '0'
  | .text _ => '\x22'
  | .array _ => '['
  | .object _ => '\x7b'

/-- The kind that the first character of a text tells. -/
def openingOf (c : Char) : Char :=
  if isNumeric c then '0' else c

theorem chars_eq_cons (charset : Charset) (value : Json) :
    ∃ c rest, value.chars charset = c :: rest ∧ openingOf c = value.opening := by
  have hnumber {numeral : List Char} (hne : numeral ≠ [])
      (hall : ∀ c ∈ numeral, isNumeric c = true) :
      ∃ c rest, numeral = c :: rest ∧ openingOf c = '0' := by
    obtain ⟨c, rest, rfl⟩ := List.exists_cons_of_ne_nil hne
    exact ⟨c, rest, rfl, by rw [openingOf, if_pos (hall c List.mem_cons_self)]⟩
  cases value with
  | null => exact ⟨'n', _, rfl, rfl⟩
  | bool b => cases b <;> exact ⟨_, _, rfl, rfl⟩
  | int n =>
    exact hnumber (Numeral.toList_ofInt_ne_nil n) fun c hc ↦ isNumeric_of_mem_ofInt hc
  | float x =>
    refine hnumber (fun hnil ↦ ?_) x.numeric_text.1
    have hmark := x.numeric_text.2
    simp only [chars] at hnil
    simp [hnil] at hmark
  | text s => exact ⟨'\x22', _, rfl, rfl⟩
  | array items => exact ⟨'[', _, rfl, rfl⟩
  | object members => exact ⟨'\x7b', _, rfl, rfl⟩

theorem opening_eq_of_append_eq {charset : Charset} {a b : Json} {rest others : List Char}
    (h : a.chars charset ++ rest = b.chars charset ++ others) : a.opening = b.opening := by
  obtain ⟨c, more, hc, hopening⟩ := chars_eq_cons charset a
  obtain ⟨d, less, hd, hother⟩ := chars_eq_cons charset b
  rw [hc, hd, List.cons_append, List.cons_append, List.cons.injEq] at h
  rw [← hopening, ← hother, h.1]

/-- No value starts with a closing bracket. -/
theorem chars_append_ne_cons (charset : Charset) (value : Json) (rest others : List Char)
    {close : Char} (hclose : close = ']' ∨ close = '\x7d') :
    value.chars charset ++ rest ≠ close :: others := by
  intro h
  obtain ⟨c, more, hc, hopening⟩ := chars_eq_cons charset value
  rw [hc, List.cons_append, List.cons.injEq] at h
  obtain rfl := h.1
  rcases hclose with rfl | rfl <;> cases value with
  | bool b => cases b <;> exact absurd hopening (by decide)
  | _ => exact absurd hopening (by simp only [opening]; decide)

/-! ## Separated parts -/

/-- What follows a part: a comma and the other parts, or the closing bracket. -/
def following (close : Char) (parts : List (List Char)) (rest : List Char) : List Char :=
  match parts with
  | [] => close :: rest
  | part :: more => ',' :: ([','].intercalate (part :: more) ++ close :: rest)

theorem intercalate_cons_append (close : Char) (part : List Char) (parts : List (List Char))
    (rest : List Char) :
    [','].intercalate (part :: parts) ++ close :: rest = part ++ following close parts rest := by
  cases parts with
  | nil => simp [following, List.intercalate]
  | cons other parts => simp [following, List.intercalate, List.intersperse]

theorem stops_following {close : Char} (hclose : isNumeric close = false)
    (parts : List (List Char)) (rest : List Char) : Stops (following close parts rest) := by
  intro c hc
  cases parts with
  | nil =>
    obtain rfl : close = c := by simpa [following] using hc
    exact hclose
  | cons part parts =>
    obtain rfl : ',' = c := by simpa [following] using hc
    decide

/-- What follows a part tells whether there are others, and which text they have. -/
theorem following_inj {close : Char} (hclose : close ≠ ',') {parts others : List (List Char)}
    {rest tail : List Char} (h : following close parts rest = following close others tail) :
    (parts = [] ↔ others = []) ∧
      [','].intercalate parts ++ close :: rest = [','].intercalate others ++ close :: tail := by
  cases parts <;> cases others
  · simpa [following] using h
  · exact absurd (List.cons.inj h).1 hclose
  · exact absurd (List.cons.inj h).1.symm hclose
  · simpa [following] using h

/-! ## Values -/

mutual

/-- Values whose compact texts start the same text are equal, and so is what follows. -/
theorem chars_append_inj {charset : Charset} : ∀ (a b : Json) {rest others : List Char},
    Stops rest → Stops others → a.chars charset ++ rest = b.chars charset ++ others →
      a = b ∧ rest = others := by
  intro a b rest others hrest hothers h
  have hopening := opening_eq_of_append_eq h
  cases a with
  | null =>
    cases b with
    | null => simpa [chars] using h
    | bool c => cases c <;> simp [opening] at hopening
    | _ => simp [opening] at hopening
  | bool flag =>
    cases b with
    | bool c => cases flag <;> cases c <;> simp_all [chars, opening]
    | _ => cases flag <;> simp [opening] at hopening
  | int m =>
    cases b with
    | int n =>
      obtain ⟨htext, htail⟩ := numeral_append_inj (fun c ↦ isNumeric_of_mem_ofInt)
        (fun c ↦ isNumeric_of_mem_ofInt) hrest hothers h
      exact ⟨by rw [Numeral.ofInt_injective htext], htail⟩
    | float x =>
      obtain ⟨htext, -⟩ := numeral_append_inj (fun c ↦ isNumeric_of_mem_ofInt) x.numeric_text.1
        hrest hothers h
      exact absurd htext (ofInt_ne_text m x)
    | bool c => cases c <;> simp [opening] at hopening
    | _ => simp [opening] at hopening
  | float x =>
    cases b with
    | int n =>
      obtain ⟨htext, -⟩ := numeral_append_inj x.numeric_text.1 (fun c ↦ isNumeric_of_mem_ofInt)
        hrest hothers h
      exact absurd htext.symm (ofInt_ne_text n x)
    | float y =>
      obtain ⟨htext, htail⟩ := numeral_append_inj x.numeric_text.1 y.numeric_text.1 hrest hothers h
      exact ⟨by rw [Finite64.text_injective htext], htail⟩
    | bool c => cases c <;> simp [opening] at hopening
    | _ => simp [opening] at hopening
  | text s =>
    cases b with
    | text t =>
      obtain ⟨hsame, htail⟩ := quoteText_append_inj h
      exact ⟨by rw [hsame], htail⟩
    | bool c => cases c <;> simp [opening] at hopening
    | _ => simp [opening] at hopening
  | array items =>
    cases b with
    | array others =>
      simp only [chars, List.cons_append, List.append_assoc, List.nil_append, List.cons.injEq,
        true_and] at h
      obtain ⟨hsame, htail⟩ := items_append_inj items others h
      exact ⟨by rw [hsame], htail⟩
    | bool c => cases c <;> simp [opening] at hopening
    | _ => simp [opening] at hopening
  | object members =>
    cases b with
    | object others =>
      simp only [chars, List.cons_append, List.append_assoc, List.nil_append, List.cons.injEq,
        true_and] at h
      obtain ⟨hsame, htail⟩ := members_append_inj members others h
      exact ⟨by rw [hsame], htail⟩
    | bool c => cases c <;> simp [opening] at hopening
    | _ => simp [opening] at hopening

theorem items_append_inj {charset : Charset} : ∀ (items others : List Json)
    {rest tail : List Char}, [','].intercalate (itemChars charset items) ++ ']' :: rest =
      [','].intercalate (itemChars charset others) ++ ']' :: tail → items = others ∧ rest = tail := by
  intro items others rest tail h
  match items, others with
  | [], [] => simpa [itemChars] using h
  | [], other :: others =>
    rw [itemChars, itemChars, intercalate_cons_append] at h
    exact absurd h.symm (chars_append_ne_cons charset other _ _ (.inl rfl))
  | item :: items, [] =>
    rw [itemChars, itemChars, intercalate_cons_append] at h
    exact absurd h (chars_append_ne_cons charset item _ _ (.inl rfl))
  | item :: items, other :: others =>
    rw [itemChars, itemChars, intercalate_cons_append, intercalate_cons_append] at h
    obtain ⟨hitem, hfollowing⟩ := chars_append_inj item other (stops_following (by decide) _ _)
      (stops_following (by decide) _ _) h
    obtain ⟨hsame, htail⟩ := items_append_inj items others
      (following_inj (by decide) hfollowing).2
    exact ⟨by rw [hitem, hsame], htail⟩

theorem members_append_inj {charset : Charset} : ∀ (members others : List (String × Json))
    {rest tail : List Char}, [','].intercalate (memberChars charset members) ++ '\x7d' :: rest =
      [','].intercalate (memberChars charset others) ++ '\x7d' :: tail →
        members = others ∧ rest = tail := by
  intro members others rest tail h
  match members, others with
  | [], [] => simpa [memberChars] using h
  | [], (key, other) :: others =>
    rw [memberChars, memberChars, intercalate_cons_append] at h
    exact absurd (List.cons.inj h).1 (by decide)
  | (key, value) :: members, [] =>
    rw [memberChars, memberChars, intercalate_cons_append] at h
    exact absurd (List.cons.inj h).1 (by decide)
  | (key, value) :: members, (label, other) :: others =>
    rw [memberChars, memberChars, intercalate_cons_append, intercalate_cons_append,
      List.append_assoc, List.append_assoc] at h
    obtain ⟨hkey, hvalue⟩ := quoteText_append_inj h
    rw [List.cons_append, List.cons_append, List.cons.injEq] at hvalue
    obtain ⟨hsame, hfollowing⟩ := chars_append_inj value other (stops_following (by decide) _ _)
      (stops_following (by decide) _ _) hvalue.2
    obtain ⟨hmembers, htail⟩ := members_append_inj members others
      (following_inj (by decide) hfollowing).2
    exact ⟨by rw [hkey, hsame, hmembers], htail⟩

end

/-- The compact text of a value determines it. -/
theorem chars_injective (charset : Charset) : Function.Injective (chars charset) := by
  intro a b h
  have hstops : Stops [] := by
    simp [Stops]
  have hnil : a.chars charset ++ [] = b.chars charset ++ [] := by rw [h]
  exact (chars_append_inj a b hstops hstops hnil).1

end EntityCompiler.Json
