import EntityCompiler.Proofs.Sql.Literal

/-!
# Literals lose nothing

The literal of a default determines the default, with all kinds of values told apart at any depth.  Where a
dialect has arrays, an element ends at a comma or a bracket outside of quotes; elsewhere an array is the
literal of its JSON text.
-/

namespace EntityCompiler.Sql

/-! ## Readable texts -/

/-- Whether an element of an array literal in front of a text ends there. -/
def Ends (rest : List Char) : Prop :=
  ∀ c ∈ rest.head?, c = ',' ∨ c = ']'

/-- Whether the texts that are written for values tell the values in front of whatever ends them. -/
def Readable (Writes : Json → String → Prop) : Prop :=
  ∀ (a b : Json) {s t : String} {rest others : List Char}, Writes a s → Writes b t →
    Ends rest → Ends others → s.toList ++ rest = t.toList ++ others → a = b ∧ rest = others

/-- Whether no text that is written for a value begins like `NULL` or like the end of an array. -/
def Opens (Writes : Json → String → Prop) : Prop :=
  ∀ (a : Json) {s : String}, Writes a s → ∃ c ∈ s.toList.head?, c ≠ 'N' ∧ c ≠ ']'

/-- What is written for null, and for other values. -/
def OrNull (Writes : Json → String → Prop) (a : Json) (s : String) : Prop :=
  (a = .null ∧ s = "NULL") ∨ Writes a s

section Ends

variable {rest : List Char}

theorem ends_nil : Ends [] :=
  nofun

theorem ends_cons {c : Char} (hc : c = ',' ∨ c = ']') : Ends (c :: rest) := by
  intro first hfirst
  obtain rfl := Option.some.inj hfirst
  exact hc

theorem Ends.stops (h : Ends rest) : Json.Stops rest := by
  intro c hc
  rcases h c hc with rfl | rfl <;> decide

/-- A suffix that begins with no quote, in front of what ends an element, begins with no quote. -/
theorem Ends.append_ne_quote (h : Ends rest) {suffix : String}
    (hsuffix : suffix.toList.head? ≠ some '\x27') :
    ∀ c ∈ (suffix.toList ++ rest).head?, c ≠ '\x27' := by
  intro c hc
  cases hchars : suffix.toList with
  | nil =>
    rw [hchars, List.nil_append] at hc
    rcases h c hc with rfl | rfl <;> decide
  | cons first more =>
    rw [hchars, List.cons_append] at hc
    rintro rfl
    exact hsuffix (by rw [hchars]; exact hc)

end Ends

section Writes

variable {Writes Others : Json → String → Prop}

theorem Readable.mono (h : Readable Others) (hle : ∀ a s, Writes a s → Others a s) :
    Readable Writes := fun a b _ _ _ _ ha hb ↦ h a b (hle _ _ ha) (hle _ _ hb)

theorem Readable.eq (h : Readable Writes) {a b : Json} {s : String} (ha : Writes a s)
    (hb : Writes b s) : a = b :=
  (h a b ha hb ends_nil ends_nil rfl).1

theorem Opens.mono (h : Opens Others) (hle : ∀ a s, Writes a s → Others a s) : Opens Writes :=
  fun a _ ha ↦ h a (hle _ _ ha)

/-! ### Kinds of texts -/

/-- The literals of JSON texts, with anything around them that does not continue them. -/
theorem readable_quoted (before : String) {suffix : String}
    (hsuffix : suffix.toList.head? ≠ some '\x27') :
    Readable fun a s ↦ s = before ++ (quoteText a.compact ++ suffix) := by
  rintro a b s t rest others rfl rfl hrest hothers h
  simp only [String.toList_append, List.append_assoc, List.append_cancel_left_eq] at h
  obtain ⟨htext, hafter⟩ :=
    quoteText_append_inj (hrest.append_ne_quote hsuffix) (hothers.append_ne_quote hsuffix) h
  exact ⟨compact_injective htext, List.append_cancel_left hafter⟩

theorem readable_text : Readable fun a s ↦ ∃ text, a = .text text ∧ s = quoteText text := by
  rintro a b s t rest others ⟨text, rfl, rfl⟩ ⟨other, rfl, rfl⟩ hrest hothers h
  have hempty : "".toList.head? ≠ some '\x27' := nofun
  obtain ⟨htext, hafter⟩ :=
    quoteText_append_inj (hrest.append_ne_quote hempty) (hothers.append_ne_quote hempty) h
  exact ⟨by rw [htext], hafter⟩

theorem readable_compact : Readable fun a s ↦ s.toList = a.chars .unicode := by
  intro a b s t rest others hs ht hrest hothers h
  rw [hs, ht] at h
  exact Json.chars_append_inj a b hrest.stops hothers.stops h

theorem readable_bool (d : Dialect) : Readable fun a s ↦ ∃ b, a = .bool b ∧
    s = if b then (Profile.of d).trueLiteral else (Profile.of d).falseLiteral := by
  rintro a b s t rest others ⟨x, rfl, rfl⟩ ⟨y, rfl, rfl⟩ - - h
  cases d <;> cases x <;> cases y <;>
    first
    | exact ⟨rfl, List.append_cancel_left h⟩
    | exact absurd (List.cons.inj h).1 (by decide)

theorem cons_ne_append {s : String} {c : Char} (h : ∃ first ∈ s.toList.head?, first ≠ c)
    (rest others : List Char) : c :: rest ≠ s.toList ++ others := by
  obtain ⟨first, hfirst, hne⟩ := h
  obtain ⟨more, hmore⟩ := List.head?_eq_some_iff.mp hfirst
  intro heq
  rw [hmore] at heq
  exact hne (List.cons.inj heq).1.symm

/-- Null is told from other values by the first character. -/
theorem Readable.orNull (h : Readable Writes) (hopens : Opens Writes) : Readable (OrNull Writes) := by
  have hnull {b : Json} {t : String} {rest others : List Char} (ht : Writes b t) :
      "NULL".toList ++ rest ≠ t.toList ++ others := by
    obtain ⟨c, hc, hne, -⟩ := hopens b ht
    exact cons_ne_append ⟨c, hc, hne⟩ _ others
  intro a b s t rest others ha hb hrest hothers heq
  rcases ha with ⟨rfl, rfl⟩ | ha <;> rcases hb with ⟨rfl, rfl⟩ | hb
  · exact ⟨rfl, List.append_cancel_left heq⟩
  · exact absurd heq (hnull hb)
  · exact absurd heq.symm (hnull ha)
  · exact h a b ha hb hrest hothers heq

/-! ### Arrays -/

/-- The parts after the first one, up to the closing bracket. -/
def tailChars (parts : List String) (rest : List Char) : List Char :=
  parts.flatMap (fun part ↦ ',' :: ' ' :: part.toList) ++ ']' :: rest

theorem ends_tailChars (parts : List String) (rest : List Char) : Ends (tailChars parts rest) := by
  cases parts with
  | nil => exact ends_cons (.inr rfl)
  | cons part parts => exact ends_cons (.inl rfl)

theorem Readable.tail (h : Readable Writes) {items others : List Json} {parts texts : List String}
    {rest after : List Char} (hparts : List.Forall₂ Writes items parts)
    (htexts : List.Forall₂ Writes others texts)
    (heq : tailChars parts rest = tailChars texts after) : items = others ∧ rest = after := by
  induction hparts generalizing others texts with
  | nil =>
    cases htexts with
    | nil => exact ⟨rfl, (List.cons.inj heq).2⟩
    | cons _ _ => exact absurd (List.cons.inj heq).1 (by decide)
  | @cons item part items parts hpart hparts ih =>
    cases htexts with
    | nil => exact absurd (List.cons.inj heq).1 (by decide)
    | @cons other text others texts htext htexts =>
      have hchars : part.toList ++ tailChars parts rest = text.toList ++ tailChars texts after := by
        simpa [tailChars] using heq
      obtain ⟨rfl, htail⟩ :=
        h item other hpart htext (ends_tailChars _ _) (ends_tailChars _ _) hchars
      obtain ⟨rfl, hrest⟩ := ih htexts htail
      exact ⟨rfl, hrest⟩

/-- What is written for an array whose items are written in a given way. -/
def WritesArray (Writes : Json → String → Prop) (a : Json) (s : String) : Prop :=
  ∃ items parts, a = .array items ∧ List.Forall₂ Writes items parts ∧
    s = "ARRAY[" ++ ", ".intercalate parts ++ "]"

theorem toList_array_nil (rest : List Char) :
    ("ARRAY[" ++ ", ".intercalate [] ++ "]").toList ++ rest = "ARRAY[".toList ++ ']' :: rest :=
  rfl

theorem toList_array_cons (part : String) (parts : List String) (rest : List Char) :
    ("ARRAY[" ++ ", ".intercalate (part :: parts) ++ "]").toList ++ rest =
      "ARRAY[".toList ++ (part.toList ++ tailChars parts rest) := by
  rw [String.toList_append, String.toList_append, String.toList_intercalate, List.map_cons,
    Json.intercalate_cons, List.flatMap_map, tailChars]
  simp only [List.append_assoc]
  rfl

/-- Arrays are readable if their items are and do not begin like the end of an array. -/
theorem Readable.array (h : Readable Writes)
    (hopens : ∀ (a : Json) {s : String}, Writes a s → ∃ c ∈ s.toList.head?, c ≠ ']') :
    Readable (WritesArray Writes) := by
  have hempty {b : Json} {t : String} {rest others : List Char} (ht : Writes b t) :
      ']' :: rest ≠ t.toList ++ others :=
    cons_ne_append (hopens b ht) rest others
  rintro a b s t rest others ⟨items, parts, rfl, hparts, rfl⟩ ⟨values, texts, rfl, htexts, rfl⟩ - - heq
  cases hparts with
  | nil =>
    cases htexts with
    | nil => exact ⟨rfl, List.append_cancel_left heq⟩
    | cons htext _ =>
      rw [toList_array_nil, toList_array_cons] at heq
      exact absurd (List.append_cancel_left heq) (hempty htext)
  | @cons item part items parts hpart hparts =>
    cases htexts with
    | nil =>
      rw [toList_array_nil, toList_array_cons] at heq
      exact absurd (List.append_cancel_left heq.symm) (hempty hpart)
    | @cons value text values texts htext htexts =>
      -- The first items end where a comma or the bracket follows; then the tails are compared.
      rw [toList_array_cons, toList_array_cons] at heq
      obtain ⟨rfl, htail⟩ := h item value hpart htext (ends_tailChars _ _) (ends_tailChars _ _)
        (List.append_cancel_left heq)
      obtain ⟨rfl, hrest⟩ := h.tail hparts htexts htail
      exact ⟨rfl, hrest⟩

theorem opens_array : Opens (WritesArray Writes) := by
  rintro a s ⟨items, parts, rfl, -, rfl⟩
  refine ⟨'A', ?_, by decide⟩
  rw [String.append_assoc, String.toList_append]
  rfl

end Writes

/-! ## Literals -/

section Literals

variable {d : Dialect} {q : Primitive} {a b : Json} {s : String}

/-- A JSON value is the literal of its text with parts around it that do not depend on it. -/
theorem exists_around_renderJson (d : Dialect) : ∃ before suffix,
    suffix.toList.head? ≠ some '\x27' ∧
      (∀ text : String, ∃ c ∈ (before ++ (quoteText text ++ suffix)).toList.head?, c ≠ 'N' ∧ c ≠ ']') ∧
      ∀ value, renderJson (.of d) value = before ++ (quoteText value.compact ++ suffix) := by
  have hquote (text suffix : String) :
      ∃ c ∈ ("" ++ (quoteText text ++ suffix)).toList.head?, c ≠ 'N' ∧ c ≠ ']' := by
    refine ⟨'\x27', ?_, by decide⟩
    rw [String.empty_append, String.toList_append, toList_quoteText]
    rfl
  cases d with
  | postgres =>
    exact ⟨"", "::jsonb", by decide, fun text ↦ hquote text _, fun _ ↦ String.empty_append.symm⟩
  | sqlite => exact ⟨"", "", nofun, fun text ↦ hquote text _, fun _ ↦ String.empty_append.symm⟩
  | mysql =>
    refine ⟨"(", ")", by decide, fun text ↦ ⟨'(', ?_, by decide⟩, fun value ↦ ?_⟩
    · rw [String.toList_append]
      rfl
    · have hcast : castJson (.of .mysql) value = quoteText value.compact := String.append_empty
      rw [← String.append_assoc, ← hcast]
      rfl

theorem readable_renderJson (d : Dialect) : Readable fun a s ↦ s = renderJson (.of d) a := by
  obtain ⟨before, suffix, hsuffix, -, hall⟩ := exists_around_renderJson d
  simp only [hall]
  exact readable_quoted before hsuffix

theorem opens_renderJson (d : Dialect) : Opens fun a s ↦ s = renderJson (.of d) a := by
  obtain ⟨before, suffix, -, hopens, hall⟩ := exists_around_renderJson d
  rintro a s rfl
  rw [hall]
  exact hopens a.compact

/-- What is written for a value of a primitive type. -/
def WritesScalar (d : Dialect) (q : Primitive) (a : Json) (s : String) : Prop :=
  Literal.ScalarForm q a ∧ renderScalar (.of d) q a = .ok s

/-- What is written for a value of a primitive type is the literal of a JSON value or of a text, a number or
a truth value. -/
theorem writesScalar_cases (hdate : d = .mysql → q ≠ .date) (h : WritesScalar d q a s) :
    (q = .json ∧ s = renderJson (.of d) a) ∨
    ((q = .string ∨ q = .date) ∧ ∃ text, a = .text text ∧ s = quoteText text) ∨
    ((q = .number ∨ q = .integer) ∧ s.toList = a.chars .unicode ∧
      ∀ c ∈ s.toList, Json.isNumeric c = true) ∨
    (q = .boolean ∧ ∃ b, a = .bool b ∧
      s = if b then (Profile.of d).trueLiteral else (Profile.of d).falseLiteral) := by
  obtain ⟨hform, hs⟩ := h
  have hint {n : Int} (hs : Except.ok (Numeral.ofInt n) = (.ok s : Except Failure String)) :
      s.toList = (Json.int n).chars .unicode ∧ ∀ c ∈ s.toList, Json.isNumeric c = true := by
    obtain rfl := Except.ok.inj hs
    exact ⟨rfl, fun c hc ↦ Json.isNumeric_of_mem_ofInt hc⟩
  cases q with
  | json => exact .inl ⟨rfl, (Except.ok.inj hs).symm⟩
  | string =>
    cases a with
    | text text => exact .inr (.inl ⟨.inl rfl, text, rfl, (Except.ok.inj hs).symm⟩)
    | _ => exact absurd hform id
  | date =>
    cases a with
    | text text =>
      refine .inr (.inl ⟨.inr rfl, text, rfl, ?_⟩)
      cases d with
      | mysql => exact absurd rfl (hdate rfl)
      | _ => exact (Except.ok.inj hs).symm
    | _ => exact absurd hform id
  | number =>
    cases a with
    | int n => exact .inr (.inr (.inl ⟨.inl rfl, hint hs⟩))
    | float x =>
      obtain rfl := Except.ok.inj hs
      exact .inr (.inr (.inl ⟨.inl rfl, rfl, x.numeric_text.1⟩))
    | _ => exact absurd hform id
  | integer =>
    cases a with
    | int n => exact .inr (.inr (.inl ⟨.inr rfl, hint hs⟩))
    | _ => exact absurd hform id
  | boolean =>
    cases a with
    | bool b => exact .inr (.inr (.inr ⟨rfl, b, rfl, (Except.ok.inj hs).symm⟩))
    | _ => exact absurd hform id

theorem readable_scalar (hdate : d = .mysql → q ≠ .date) : Readable (WritesScalar d q) := by
  cases q with
  | json =>
    refine (readable_renderJson d).mono fun a s h ↦ ?_
    simpa using writesScalar_cases hdate h
  | string =>
    refine readable_text.mono fun a s h ↦ ?_
    simpa using writesScalar_cases hdate h
  | date =>
    refine readable_text.mono fun a s h ↦ ?_
    simpa using writesScalar_cases hdate h
  | number =>
    refine readable_compact.mono fun a s h ↦ ?_
    have hcases := writesScalar_cases hdate h
    simp only [reduceCtorEq, false_and, or_self, or_false, true_and, false_or] at hcases
    exact hcases.1
  | integer =>
    refine readable_compact.mono fun a s h ↦ ?_
    have hcases := writesScalar_cases hdate h
    simp only [reduceCtorEq, false_and, or_self, or_false, or_true, true_and, false_or] at hcases
    exact hcases.1
  | boolean =>
    refine (readable_bool d).mono fun a s h ↦ ?_
    simpa using writesScalar_cases hdate h

theorem opens_scalar (hdate : d = .mysql → q ≠ .date) : Opens (WritesScalar d q) := by
  intro a s h
  rcases writesScalar_cases hdate h with ⟨-, hjson⟩ | ⟨-, text, -, rfl⟩ | ⟨-, hchars, hnumeric⟩ |
    ⟨-, b, -, rfl⟩
  · exact opens_renderJson d a hjson
  · exact ⟨'\x27', by rw [toList_quoteText]; rfl, by decide⟩
  · obtain ⟨c, more, hopening, -⟩ := Json.chars_eq_cons .unicode a
    rw [← hchars] at hopening
    have hc : Json.isNumeric c = true := hnumeric c (by rw [hopening]; exact List.mem_cons_self)
    refine ⟨c, by rw [hopening]; rfl, ?_, ?_⟩ <;> rintro rfl <;> exact absurd hc (by decide)
  · cases d <;> cases b <;> exact ⟨_, rfl, by decide⟩

/-- What is written for an element of an array literal other than null. -/
def WritesElement (type : ColumnType) (a : Json) (s : String) : Prop :=
  a ≠ .null ∧ Literal.Form type a ∧ renderElement (.of .postgres) type a = .ok s

theorem writesScalar_of_writesElement (h : WritesElement (.primitive q) a s) :
    WritesScalar .postgres q a s := by
  obtain ⟨hnull, hform, hs⟩ := h
  refine ⟨hform, ?_⟩
  rw [← hs]
  cases q <;> cases a <;> first | rfl | exact absurd rfl hnull

theorem writesArray_of_writesElement {element : ColumnType} (h : WritesElement (.arrayOf element) a s) :
    WritesArray (OrNull (WritesElement element)) a s := by
  obtain ⟨-, hform, hs⟩ := h
  cases a with
  | array items =>
    change ∀ item ∈ items, Literal.Form element item at hform
    rw [renderElement, bind_eq_ok_iff] at hs
    obtain ⟨parts, hparts, hs⟩ := hs
    have hkept : List.Forall₂ (fun item part ↦ Literal.Form element item ∧
        renderElement (.of .postgres) element item = .ok part) items parts :=
      (List.forall₂_and_left _ _).mpr ⟨hform, mapM_eq_ok_iff.mp hparts⟩
    refine ⟨items, parts, rfl, hkept.imp fun item part hitem ↦ ?_, (Except.ok.inj hs).symm⟩
    by_cases hnull : item = .null
    · subst hnull
      have hpart := hitem.2
      cases element <;> exact .inl ⟨rfl, (Except.ok.inj hpart).symm⟩
    · exact .inr ⟨hnull, hitem⟩
  | _ => exact absurd hform id

/-- Elements of array literals are readable, and none but null begins like it. -/
theorem readable_element (type : ColumnType) :
    Readable (WritesElement type) ∧ Opens (WritesElement type) := by
  induction type with
  | primitive q =>
    have hle (a : Json) (s : String) := @writesScalar_of_writesElement q a s
    have hdate : Dialect.postgres = .mysql → q ≠ .date := nofun
    exact ⟨(readable_scalar hdate).mono hle, (opens_scalar hdate).mono hle⟩
  | arrayOf element ih =>
    have hle (a : Json) (s : String) := @writesArray_of_writesElement a s element
    refine ⟨((ih.1.orNull ih.2).array ?_).mono hle, opens_array.mono hle⟩
    rintro a s (⟨-, rfl⟩ | ha)
    · exact ⟨'N', rfl, by decide⟩
    · obtain ⟨c, hc, -, hne⟩ := ih.2 a ha
      exact ⟨c, hc, hne⟩

/-! ## Defaults -/

variable {subject other : Subject} {type : ColumnType} {text : String}

/-- The literal of a default other than null is the one of a scalar, of an array or of a JSON value. -/
theorem renderDefault_cases (hnull : a ≠ .null) (hform : Literal.Form type a)
    (h : renderDefault (.of d) subject type a = .ok text) :
    (∃ q, type = .primitive q ∧ WritesScalar d q a text) ∨
    (type.isArray = true ∧ d = .postgres ∧ ∃ name body, (∀ other,
      renderType (.of d) true other type = .ok name) ∧ WritesElement type a body ∧
      text = body ++ "::" ++ name) ∨
    (type.isArray = true ∧ d ≠ .postgres ∧ text = renderJson (.of d) a) := by
  cases type with
  | primitive q =>
    refine .inl ⟨q, rfl, hform, ?_⟩
    rw [← h]
    cases a <;> first | rfl | exact absurd rfl hnull
  | arrayOf element =>
    cases a with
    | array items =>
      cases d with
      | postgres =>
        have hnative : (Profile.of .postgres).nativeArrays = true := rfl
        simp only [renderDefault, hnative, if_true, bind_eq_ok_iff, mapError_eq_ok_iff] at h
        obtain ⟨name, hname, body, hbody, htext⟩ := h
        obtain ⟨same, hsame⟩ := exists_renderType .postgres (.arrayOf element)
        obtain rfl := Except.ok.inj ((hsame subject).symm.trans hname)
        exact .inr (.inl ⟨rfl, rfl, same, body, hsame, ⟨hnull, hform, hbody⟩,
          (Except.ok.inj htext).symm⟩)
      | _ => exact .inr (.inr ⟨rfl, by decide, (Except.ok.inj h).symm⟩)
    | _ => exact absurd hform id

theorem renderDefault_ne_null (hdate : d = .mysql → type ≠ .primitive .date) (hnull : a ≠ .null)
    (hform : Literal.Form type a) (h : renderDefault (.of d) subject type a = .ok text) :
    text ≠ "NULL" := by
  have hopens : ∃ c ∈ text.toList.head?, c ≠ 'N' ∧ c ≠ ']' := by
    rcases renderDefault_cases hnull hform h with ⟨q, rfl, hscalar⟩ |
      ⟨-, -, name, body, -, hbody, rfl⟩ | ⟨-, -, htext⟩
    · exact opens_scalar (fun hd heq ↦ hdate hd (by rw [heq])) a hscalar
    · obtain ⟨c, hc, hne⟩ := (readable_element type).2 a hbody
      obtain ⟨more, hmore⟩ := List.head?_eq_some_iff.mp hc
      refine ⟨c, ?_, hne⟩
      rw [String.append_assoc, String.toList_append, hmore]
      rfl
    · exact opens_renderJson d a htext
  rintro rfl
  obtain ⟨c, hc, hne, -⟩ := hopens
  exact hne (Option.some.inj hc).symm

theorem renderDefault_inj_of_form (hdate : d = .mysql → type ≠ .primitive .date) (ha : a ≠ .null)
    (hb : b ≠ .null) (hforma : Literal.Form type a) (hformb : Literal.Form type b)
    (h : renderDefault (.of d) subject type a = .ok text)
    (h' : renderDefault (.of d) other type b = .ok text) : a = b := by
  rcases renderDefault_cases ha hforma h with ⟨q, rfl, hscalar⟩ |
    ⟨harray, hd, name, body, hname, hbody, rfl⟩ | ⟨harray, hd, htext⟩
  · rcases renderDefault_cases hb hformb h' with ⟨q', hq, hscalar'⟩ | ⟨harray, -⟩ | ⟨harray, -⟩
    · obtain rfl := ColumnType.primitive.inj hq
      exact (readable_scalar fun hd heq ↦ hdate hd (by rw [heq])).eq hscalar hscalar'
    · exact absurd harray Bool.false_ne_true
    · exact absurd harray Bool.false_ne_true
  · rcases renderDefault_cases hb hformb h' with ⟨q, rfl, -⟩ |
      ⟨-, -, name', body', hname', hbody', heq⟩ | ⟨-, hother, -⟩
    · exact absurd harray Bool.false_ne_true
    · obtain rfl := Except.ok.inj ((hname subject).symm.trans (hname' subject))
      have hchars := congrArg String.toList heq
      simp only [String.toList_append, List.append_cancel_right_eq, String.toList_inj] at hchars
      subst hchars
      exact (readable_element type).1.eq hbody hbody'
    · exact absurd hd hother
  · rcases renderDefault_cases hb hformb h' with ⟨q, rfl, -⟩ | ⟨-, hother, -⟩ | ⟨-, -, htext'⟩
    · exact absurd harray Bool.false_ne_true
    · exact absurd hother hd
    · exact (readable_renderJson d).eq htext htext'

/-- Defaults of one type with the same literal are the same, whatever columns they are defaults of.  Only
dates that are moved to universal time may have one literal in common. -/
theorem renderDefault_inj (hdate : d = .mysql → type ≠ .primitive .date)
    (ha : a = .null ∨ (a ≠ .null ∧ Literal.Form type a))
    (hb : b = .null ∨ (b ≠ .null ∧ Literal.Form type b))
    (h : renderDefault (.of d) subject type a = .ok text)
    (h' : renderDefault (.of d) other type b = .ok text) : a = b := by
  have hnull {subject : Subject} {text : String}
      (h : renderDefault (.of d) subject type .null = .ok text) : text = "NULL" := by
    cases type <;> exact (Except.ok.inj h).symm
  rcases ha with rfl | ⟨ha, hforma⟩ <;> rcases hb with rfl | ⟨hb, hformb⟩
  · rfl
  · exact absurd (hnull h) (renderDefault_ne_null hdate hb hformb h')
  · exact absurd (hnull h') (renderDefault_ne_null hdate ha hforma h)
  · exact renderDefault_inj_of_form hdate ha hb hforma hformb h h'

end Literals

end EntityCompiler.Sql
