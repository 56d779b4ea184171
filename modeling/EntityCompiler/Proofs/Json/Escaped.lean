import EntityCompiler.Proofs.Json.Length

/-!
# Escapes in JSON texts

Where a backslash stands in the compact text of a value.  It has one exactly when a text or a key in the
value has a character that JSON does not allow as it is, and each such character gives an escape.
-/

namespace EntityCompiler

mutual

/-- The texts in a value, at any depth, with the keys of its objects. -/
def Json.texts : Json → List String
  | .text s => [s]
  | .array items => textsOfItems items
  | .object members => textsOfMembers members
  | _ => []

def textsOfItems : List Json → List String
  | [] => []
  | item :: rest => item.texts ++ textsOfItems rest

def textsOfMembers : List (String × Json) → List String
  | [] => []
  | (key, value) :: rest => key :: (value.texts ++ textsOfMembers rest)

end

namespace Json

/-- Whether JSON allows a character of a text as it is. -/
def isVerbatim (c : Char) : Bool :=
  c ≠ '\x22' && c ≠ '\\' && 0x20 ≤ c.toNat

/-- Whether every character in the texts and keys of a value stands for itself. -/
def Verbatim (value : Json) : Prop :=
  ∀ s ∈ value.texts, ∀ c ∈ s.toList, isVerbatim c = true

variable {charset : Charset}

/-! ## Characters -/

theorem escapeChar_of_isVerbatim {c : Char} (h : isVerbatim c = true) :
    escapeChar .unicode c = [c] := by
  have hparts : (c ≠ '\x22' ∧ c ≠ '\\') ∧ 0x20 ≤ c.toNat := by
    simpa [isVerbatim] using h
  obtain ⟨⟨hquote, hback⟩, hcode⟩ := hparts
  have hother {d : Char} (hd : d.toNat < 0x20) : c ≠ d := by
    rintro rfl
    omega
  unfold escapeChar
  rw [if_neg (not_or.mpr ⟨hquote, hback⟩), if_neg (hother (by decide)), if_neg (hother (by decide)),
    if_neg (hother (by decide)), if_neg (by omega), if_neg (by omega), if_neg]
  simp [hcode]

/-- An escape is a backslash and a character that tells its kind. -/
theorem escapeChar_of_not_isVerbatim {c : Char} (h : isVerbatim c = false) :
    ∃ kind rest, escapeChar .unicode c = '\\' :: kind :: rest ∧
      kind ∈ ['\x22', '\\', 'n', 'r', 't', 'b', 'f', 'u'] := by
  have hescaped : (c = '\x22' ∨ c = '\\') ∨ c.toNat < 0x20 := by
    by_contra hnone
    simp only [not_or, not_lt] at hnone
    simp [isVerbatim, hnone] at h
  unfold escapeChar
  split_ifs with hquote hnewline hreturn htab hback hfeed hcode
  · rcases hquote with rfl | rfl
    · exact ⟨'\x22', [], rfl, by decide⟩
    · exact ⟨'\\', [], rfl, by decide⟩
  · exact ⟨'n', [], rfl, by decide⟩
  · exact ⟨'r', [], rfl, by decide⟩
  · exact ⟨'t', [], rfl, by decide⟩
  · exact ⟨'b', [], rfl, by decide⟩
  · exact ⟨'f', [], rfl, by decide⟩
  · have hunit : c.toNat < 0x10000 := by
      rcases hescaped with (rfl | rfl) | hsmall
      · decide
      · decide
      · omega
    refine ⟨'u', Numeral.hexDigits 4 c.toNat, ?_, by decide⟩
    rw [utf16Escape, if_pos hunit, unitEscape]
  · exact absurd (.inl (hescaped.resolve_left hquote)) hcode

/-! ## Values -/

theorem exists_mem_of_mem_intercalate {separator : List Char} {parts : List (List Char)} {c : Char}
    (h : c ∈ separator.intercalate parts) : c ∈ separator ∨ ∃ part ∈ parts, c ∈ part := by
  cases parts with
  | nil => exact absurd h List.not_mem_nil
  | cons part parts =>
    rw [intercalate_cons, List.mem_append, List.mem_flatMap] at h
    rcases h with hfirst | ⟨next, hnext, hmem⟩
    · exact .inr ⟨part, List.mem_cons_self, hfirst⟩
    · rcases List.mem_append.mp hmem with hseparator | hpart
      · exact .inl hseparator
      · exact .inr ⟨next, List.mem_cons_of_mem part hnext, hpart⟩

theorem infix_intercalate {separator : List Char} {parts : List (List Char)} {part : List Char}
    (h : part ∈ parts) : part <:+: separator.intercalate parts := by
  obtain ⟨before, after, rfl⟩ := List.append_of_mem h
  cases before with
  | nil =>
    rw [List.nil_append, intercalate_cons]
    exact (List.prefix_append part _).isInfix
  | cons first before =>
    rw [List.cons_append, intercalate_cons, List.flatMap_append, List.flatMap_cons]
    refine ⟨first ++ (before.flatMap (separator ++ ·) ++ separator), after.flatMap (separator ++ ·), ?_⟩
    simp only [List.append_assoc]

mutual

/-- Each text in a value is quoted somewhere in its compact text. -/
theorem infix_chars : (value : Json) → {s : String} → s ∈ value.texts →
    quoteText charset s <:+: value.chars charset
  | .text s, _, h => by
    obtain rfl := List.mem_singleton.mp h
    exact List.infix_rfl
  | .array items, _, h => by
    obtain ⟨part, hpart, hwithin⟩ := exists_infix_itemChars items h
    exact (hwithin.trans (infix_intercalate hpart)).trans ⟨['['], [']'], rfl⟩
  | .object members, _, h => by
    obtain ⟨part, hpart, hwithin⟩ := exists_infix_memberChars members h
    exact (hwithin.trans (infix_intercalate hpart)).trans ⟨['\x7b'], ['\x7d'], rfl⟩

theorem exists_infix_itemChars : (items : List Json) → {s : String} → s ∈ textsOfItems items →
    ∃ part ∈ itemChars charset items, quoteText charset s <:+: part
  | item :: items, _, h => by
    rcases List.mem_append.mp h with hitem | hitems
    · exact ⟨_, List.mem_cons_self, infix_chars item hitem⟩
    · obtain ⟨part, hpart, hwithin⟩ := exists_infix_itemChars items hitems
      exact ⟨part, List.mem_cons_of_mem _ hpart, hwithin⟩

theorem exists_infix_memberChars : (members : List (String × Json)) → {s : String} →
    s ∈ textsOfMembers members →
      ∃ part ∈ memberChars charset members, quoteText charset s <:+: part
  | (key, value) :: members, s, h => by
    rcases List.mem_cons.mp h with rfl | h
    · exact ⟨_, List.mem_cons_self, (List.prefix_append _ _).isInfix⟩
    · rcases List.mem_append.mp h with hvalue | hmembers
      · exact ⟨_, List.mem_cons_self, (infix_chars value hvalue).trans
          ⟨quoteText charset key ++ [':'], [], by simp⟩⟩
      · obtain ⟨part, hpart, hwithin⟩ := exists_infix_memberChars members hmembers
        exact ⟨part, List.mem_cons_of_mem _ hpart, hwithin⟩

end

mutual

/-- A backslash in the compact text of a value belongs to one of its texts. -/
theorem exists_text_of_mem_chars : (value : Json) → '\\' ∈ value.chars charset →
    ∃ s ∈ value.texts, '\\' ∈ quoteText charset s
  | .null, h => absurd h (by simp [chars])
  | .bool b, h => absurd h (by cases b <;> simp [chars])
  | .int n, h => absurd (isNumeric_of_mem_ofInt h) (by decide)
  | .float x, h => absurd (x.numeric_text.1 _ h) (by decide)
  | .text s, h => ⟨s, List.mem_singleton_self s, h⟩
  | .array items, h => by
    have hinner : '\\' ∈ [','].intercalate (itemChars charset items) := by
      simpa [chars] using h
    obtain ⟨part, hpart, hmem⟩ := (exists_mem_of_mem_intercalate hinner).resolve_left (by decide)
    exact exists_text_of_mem_itemChars items hpart hmem
  | .object members, h => by
    have hinner : '\\' ∈ [','].intercalate (memberChars charset members) := by
      simpa [chars] using h
    obtain ⟨part, hpart, hmem⟩ := (exists_mem_of_mem_intercalate hinner).resolve_left (by decide)
    exact exists_text_of_mem_memberChars members hpart hmem

theorem exists_text_of_mem_itemChars : (items : List Json) → {part : List Char} →
    part ∈ itemChars charset items → '\\' ∈ part →
      ∃ s ∈ textsOfItems items, '\\' ∈ quoteText charset s
  | item :: items, _, hpart, hmem => by
    rcases List.mem_cons.mp hpart with rfl | hpart
    · obtain ⟨s, hs, hback⟩ := exists_text_of_mem_chars item hmem
      exact ⟨s, List.mem_append_left _ hs, hback⟩
    · obtain ⟨s, hs, hback⟩ := exists_text_of_mem_itemChars items hpart hmem
      exact ⟨s, List.mem_append_right _ hs, hback⟩

theorem exists_text_of_mem_memberChars : (members : List (String × Json)) → {part : List Char} →
    part ∈ memberChars charset members → '\\' ∈ part →
      ∃ s ∈ textsOfMembers members, '\\' ∈ quoteText charset s
  | (key, value) :: members, _, hpart, hmem => by
    rcases List.mem_cons.mp hpart with rfl | hpart
    · rcases List.mem_append.mp hmem with hkey | hvalue
      · exact ⟨key, List.mem_cons_self, hkey⟩
      · have hvalue : '\\' ∈ value.chars charset := by simpa using hvalue
        obtain ⟨s, hs, hback⟩ := exists_text_of_mem_chars value hvalue
        exact ⟨s, List.mem_cons_of_mem _ (List.mem_append_left _ hs), hback⟩
    · obtain ⟨s, hs, hback⟩ := exists_text_of_mem_memberChars members hpart hmem
      exact ⟨s, List.mem_cons_of_mem _ (List.mem_append_right _ hs), hback⟩

end

/-- The compact text of a value whose characters stand for themselves has no backslash. -/
theorem not_mem_chars_of_verbatim {value : Json} (h : value.Verbatim) :
    '\\' ∉ value.chars .unicode := by
  intro hmem
  obtain ⟨s, hs, hback⟩ := exists_text_of_mem_chars value hmem
  have hinner : '\\' ∈ s.toList.flatMap (escapeChar .unicode) := by
    simpa [quoteText] using hback
  obtain ⟨c, hc, hescape⟩ := List.mem_flatMap.mp hinner
  have hverbatim := h s hs c hc
  rw [escapeChar_of_isVerbatim hverbatim, List.mem_singleton] at hescape
  rw [← hescape] at hverbatim
  exact absurd hverbatim (by decide)

/-- The compact text of any other value has a backslash before a character that tells an escape. -/
theorem exists_escape_of_not_verbatim {value : Json} (h : ¬value.Verbatim) :
    ∃ kind ∈ ['\x22', '\\', 'n', 'r', 't', 'b', 'f', 'u'],
      ['\\', kind] <:+: value.chars .unicode := by
  unfold Verbatim at h
  push Not at h
  obtain ⟨s, hs, c, hc, hescaped⟩ := h
  obtain ⟨kind, rest, hescape, hkind⟩ :=
    escapeChar_of_not_isVerbatim (Bool.eq_false_iff.mpr hescaped)
  obtain ⟨before, after, hsplit⟩ := List.append_of_mem hc
  have hquoted : ['\\', kind] <:+: quoteText .unicode s := by
    refine ⟨'\x22' :: before.flatMap (escapeChar .unicode),
      rest ++ (after.flatMap (escapeChar .unicode) ++ ['\x22']), ?_⟩
    simp [quoteText, hsplit, hescape]
  exact ⟨kind, hkind, hquoted.trans (infix_chars value hs)⟩

end Json

end EntityCompiler
