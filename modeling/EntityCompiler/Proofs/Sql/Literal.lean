import EntityCompiler.Proofs.Json.Length
import EntityCompiler.Proofs.Sql.Render

/-!
# Literals of reordered values

Where a dialect has no arrays, the literals of values that differ in the order of members have one
length and are equal only if the values are.  Parts of one length can be told apart in a joined text.
-/

namespace EntityCompiler.Sql

/-! ## Texts of one length -/

section Lengths

variable {separator s t rest others : String} {parts rests : List String}

def SameLength (s t : String) : Prop :=
  s.length = t.length

theorem append_inj_of_length (h : s ++ rest = t ++ others) (hlength : SameLength s t) :
    s = t ∧ rest = others := by
  have hchars := congrArg String.toList h
  rw [String.toList_append, String.toList_append] at hchars
  have hcount : s.toList.length = t.toList.length := by
    rw [String.length_toList, String.length_toList]
    exact hlength
  obtain ⟨hfirst, hrest⟩ := List.append_inj hchars hcount
  exact ⟨String.toList_inj.mp hfirst, String.toList_inj.mp hrest⟩

theorem SameLength.append (hs : SameLength s t) (hrest : SameLength rest others) :
    SameLength (s ++ rest) (t ++ others) := by
  unfold SameLength at *
  rw [String.length_append, String.length_append, hs, hrest]

theorem forall₂_sameLength_refl (parts : List String) : List.Forall₂ SameLength parts parts :=
  List.forall₂_same.mpr fun _ _ ↦ rfl

/-- Parts of one length are joined to texts of one length. -/
theorem sameLength_intercalate (h : List.Forall₂ SameLength parts rests) :
    SameLength (separator.intercalate parts) (separator.intercalate rests) := by
  induction h with
  | nil => rfl
  | cons hpart hparts ih =>
    cases hparts with
    | nil => simpa only [String.intercalate_singleton] using hpart
    | cons hnext hparts =>
      rw [String.intercalate_cons_cons, String.intercalate_cons_cons]
      exact (hpart.append rfl).append ih

/-- Texts joined from parts of one length are equal only if all parts are. -/
theorem intercalate_inj (h : List.Forall₂ SameLength parts rests)
    (heq : separator.intercalate parts = separator.intercalate rests) : parts = rests := by
  induction h with
  | nil => rfl
  | cons hpart hparts ih =>
    cases hparts with
    | nil =>
      rw [String.intercalate_singleton, String.intercalate_singleton] at heq
      rw [heq]
    | cons hnext hparts =>
      rw [String.intercalate_cons_cons, String.intercalate_cons_cons] at heq
      obtain ⟨hfirst, hrest⟩ := append_inj_of_length heq (hpart.append rfl)
      rw [(append_inj_of_length hfirst hpart).1, ih hrest]

end Lengths

/-! ## Literals -/

/-- Texts in which each quote is written twice end at the first lone quote. -/
theorem doubled_append_inj {quote : Char} {text other rest others : List Char}
    (hrest : ∀ c ∈ rest.head?, c ≠ quote) (hothers : ∀ c ∈ others.head?, c ≠ quote)
    (h : doubled [quote] text ++ quote :: rest = doubled [quote] other ++ quote :: others) :
    text = other ∧ rest = others := by
  induction text generalizing other with
  | nil =>
    cases other with
    | nil => exact ⟨rfl, (List.cons.inj h).2⟩
    | cons d other =>
      by_cases hd : d = quote
      · rw [hd, doubled_cons_self] at h
        rw [(List.cons.inj h).2] at hrest
        exact absurd rfl (hrest quote rfl)
      · rw [doubled_cons_of_ne hd] at h
        exact absurd (List.cons.inj h).1.symm hd
  | cons c text ih =>
    cases other with
    | nil =>
      by_cases hc : c = quote
      · rw [hc, doubled_cons_self] at h
        rw [← (List.cons.inj h).2] at hothers
        exact absurd rfl (hothers quote rfl)
      · rw [doubled_cons_of_ne hc] at h
        exact absurd (List.cons.inj h).1 hc
    | cons d other =>
      by_cases hc : c = quote
      · by_cases hd : d = quote
        · rw [hc, hd, doubled_cons_self, doubled_cons_self] at h
          obtain ⟨hrestored, hafter⟩ := ih (List.cons.inj (List.cons.inj h).2).2
          exact ⟨by rw [hc, hd, hrestored], hafter⟩
        · rw [hc, doubled_cons_self, doubled_cons_of_ne hd] at h
          exact absurd (List.cons.inj h).1.symm hd
      · by_cases hd : d = quote
        · rw [hd, doubled_cons_self, doubled_cons_of_ne hc] at h
          exact absurd (List.cons.inj h).1 hc
        · rw [doubled_cons_of_ne hc, doubled_cons_of_ne hd] at h
          obtain ⟨hrestored, hafter⟩ := ih (List.cons.inj h).2
          exact ⟨by rw [(List.cons.inj h).1, hrestored], hafter⟩

theorem toList_quoteText (text : String) :
    (quoteText text).toList = '\x27' :: doubled ['\x27'] text.toList ++ ['\x27'] := by
  rw [quoteText, enclosed]
  simp only [String.toList_append, String.toList_ofList]
  rfl

/-- The text of a literal can be told in front of anything but a quote. -/
theorem quoteText_append_inj {s t : String} {rest others : List Char}
    (hrest : ∀ c ∈ rest.head?, c ≠ '\x27') (hothers : ∀ c ∈ others.head?, c ≠ '\x27')
    (h : (quoteText s).toList ++ rest = (quoteText t).toList ++ others) : s = t ∧ rest = others := by
  rw [toList_quoteText, toList_quoteText] at h
  simp only [List.cons_append, List.append_assoc, List.nil_append, List.cons.injEq, true_and] at h
  obtain ⟨htext, hafter⟩ := doubled_append_inj hrest hothers h
  exact ⟨String.toList_inj.mp htext, hafter⟩

theorem quoteText_injective : Function.Injective quoteText := by
  intro s t h
  have hnone : ∀ c ∈ ([] : List Char).head?, c ≠ '\x27' := nofun
  have hchars : (quoteText s).toList ++ [] = (quoteText t).toList ++ [] := by rw [h]
  exact (quoteText_append_inj hnone hnone hchars).1

theorem sameLength_quoteText {s t : String} (h : s.toList.Perm t.toList) :
    SameLength (quoteText s) (quoteText t) := by
  have hperm : (quoteText s).toList.Perm (quoteText t).toList := by
    rw [toList_quoteText, toList_quoteText, doubled_singleton, doubled_singleton]
    exact ((h.flatMap_right _).cons _).append_right _
  rw [SameLength, ← String.length_toList, ← String.length_toList]
  exact hperm.length_eq

theorem compact_injective : Function.Injective Json.compact := fun _ _ h ↦
  Json.chars_injective .unicode (String.ofList_injective h)

/-- Whether two outcomes are texts of one length that are equal only under a condition. -/
def Tells (condition : Prop) (x y : Except Failure String) : Prop :=
  ∃ s t, x = .ok s ∧ y = .ok t ∧ SameLength s t ∧ (s = t → condition)

theorem tells_quoteText_compact {a b : Json} (h : a.Reordered b) :
    Tells (a = b) (.ok (quoteText a.compact)) (.ok (quoteText b.compact)) := by
  refine ⟨_, _, rfl, rfl, sameLength_quoteText ?_, fun heq ↦ ?_⟩
  · simpa only [Json.compact, String.toList_ofList] using Json.perm_chars_of_reordered h
  · exact compact_injective (quoteText_injective heq)

/-- Only arrays and objects have other values that they are a reordering of. -/
theorem reordered_cases {a b : Json} (h : a.Reordered b) : a = b ∨
    (∃ items others, a = .array items ∧ b = .array others) ∨
      ∃ members others, a = .object members ∧ b = .object others := by
  induction h with
  | refl value => exact .inl rfl
  | symm _ ih =>
    rcases ih with rfl | ⟨items, others, ha, hb⟩ | ⟨members, others, ha, hb⟩
    · exact .inl rfl
    · exact .inr (.inl ⟨others, items, hb, ha⟩)
    · exact .inr (.inr ⟨others, members, hb, ha⟩)
  | trans _ _ ih ih' =>
    rcases ih with rfl | ⟨items, others, rfl, rfl⟩ | ⟨members, others, rfl, rfl⟩
    · exact ih'
    · rcases ih' with rfl | ⟨_, last, -, rfl⟩ | ⟨_, _, hnever, -⟩
      · exact .inr (.inl ⟨items, others, rfl, rfl⟩)
      · exact .inr (.inl ⟨items, last, rfl, rfl⟩)
      · exact nomatch hnever
    · rcases ih' with rfl | ⟨_, _, hnever, -⟩ | ⟨_, last, -, rfl⟩
      · exact .inr (.inr ⟨members, others, rfl, rfl⟩)
      · exact nomatch hnever
      · exact .inr (.inr ⟨members, last, rfl, rfl⟩)
  | permutation _ => exact .inr (.inr ⟨_, _, rfl, rfl⟩)
  | item _ _ _ _ => exact .inr (.inl ⟨_, _, rfl, rfl⟩)
  | member _ _ _ _ _ => exact .inr (.inr ⟨_, _, rfl, rfl⟩)

theorem exists_renderDefault_sqlite (subject : Subject) (type : ColumnType) (value : Json) :
    ∃ literal, renderDefault (.of .sqlite) subject type value = .ok literal := by
  cases type with
  | primitive p => cases p <;> cases value <;> exact ⟨_, rfl⟩
  | arrayOf element => cases value <;> exact ⟨_, rfl⟩

theorem renderDefault_sqlite_array (subject : Subject) (type : ColumnType) (items : List Json) :
    renderDefault (.of .sqlite) subject type (.array items) =
      .ok (quoteText (Json.array items).compact ++ "") := by
  cases type with
  | primitive p => cases p <;> rfl
  | arrayOf element => rfl

theorem renderDefault_sqlite_object (subject : Subject) (type : ColumnType)
    (members : List (String × Json)) :
    renderDefault (.of .sqlite) subject type (.object members) =
      .ok (quoteText (Json.object members).compact ++ "") := by
  cases type with
  | primitive p => cases p <;> rfl
  | arrayOf element => rfl

/-- Where there are no arrays, the literals of reordered values are equal only if the values are. -/
theorem tells_renderDefault {a b : Json} (h : a.Reordered b) (subject : Subject)
    (type : ColumnType) :
    Tells (a = b) (renderDefault (.of .sqlite) subject type a)
      (renderDefault (.of .sqlite) subject type b) := by
  rcases reordered_cases h with rfl | ⟨items, others, rfl, rfl⟩ | ⟨members, others, rfl, rfl⟩
  · obtain ⟨literal, hliteral⟩ := exists_renderDefault_sqlite subject type a
    exact ⟨literal, literal, hliteral, hliteral, rfl, fun _ ↦ rfl⟩
  · rw [renderDefault_sqlite_array, renderDefault_sqlite_array, String.append_empty,
      String.append_empty]
    exact tells_quoteText_compact h
  · rw [renderDefault_sqlite_object, renderDefault_sqlite_object, String.append_empty,
      String.append_empty]
    exact tells_quoteText_compact h

end EntityCompiler.Sql
