import EntityCompiler.Proofs.Sql.Render
import EntityCompiler.Proofs.Sql.Table
import EntityCompiler.Proofs.Sql.Words

/-!
# Sealed texts

Types and literals are spelled by neat tokens: whatever characters a default has, a scan finds its literal
as it stands, and nothing in it splits what is around it or is taken for a keyword.
-/

namespace EntityCompiler.Sql

/-- Whether a text is spelled by neat tokens, which have no commas outside of brackets, and the keyword of a
default clause occurs `count` times among the words outside of quotes. -/
def Sealed (count : Nat) (text : String) : Prop :=
  ∃ tokens, Neat false tokens ∧ countDefault tokens = count ∧ spell tokens = text.toList

/-- Whether texts are spelled by neat tokens each, among which the keyword occurs `count` times in all. -/
def AllSealed (count : Nat) (texts : List String) : Prop :=
  ∃ items : List (List Token), (∀ item ∈ items, Neat false item) ∧
    (items.map countDefault).sum = count ∧ items.map spell = texts.map String.toList

/-! ## Sealed texts -/

section Sealed

variable {m n : Nat} {s t : String} {parts others : List String}

theorem sealed_plain (h : s.toList.all isPlain = true) (hcount : countDefault (unquoted s) = n) :
    Sealed n s := by
  have hneat : Neat false (unquoted s ++ []) := .plain_append h .nil
  rw [List.append_nil] at hneat
  exact ⟨unquoted s, hneat, hcount, spell_unquoted s⟩

/-- Plain characters that are part of no word keep the texts around them apart. -/
theorem Sealed.append (hs : Sealed m s) {separator : String} {c : Char} {rest : List Char}
    (hseparator : separator.toList = c :: rest)
    (hplain : separator.toList.all (fun c ↦ isPlain c && !(Token.char c).inWord) = true)
    (ht : Sealed n t) : Sealed (m + n) (s ++ separator ++ t) := by
  have hkind : ∀ c ∈ separator.toList, isPlain c = true ∧ (Token.char c).inWord = false := by
    simpa using hplain
  obtain ⟨first, hfirst, hcount, hspell⟩ := hs
  obtain ⟨second, hsecond, hcount', hspell'⟩ := ht
  have hlast : unquoted separator ++ second = .char c :: (rest.map .char ++ second) := by
    rw [unquoted, hseparator]
    rfl
  have hneat : Neat false (unquoted separator ++ second) :=
    hsecond.plain_append (List.all_eq_true.mpr fun c hc ↦ (hkind c hc).1)
  refine ⟨first ++ (unquoted separator ++ second), ?_, ?_, ?_⟩
  · rw [hlast] at hneat ⊢
    exact hfirst.append hneat
  · rw [countDefault_append, hcount, hcount']
    · intro token htoken
      obtain ⟨c, hc, rfl⟩ := List.mem_map.mp htoken
      exact (hkind c hc).2
    · simp [unquoted, hseparator]
  · simp only [spell_append, spell_unquoted, hspell, hspell', String.toList_append, List.append_assoc]

theorem Sealed.append_brackets (h : Sealed n s) : Sealed n (s ++ "[]") := by
  obtain ⟨tokens, hneat, hcount, hspell⟩ := h
  have hbrackets : Neat false [.char '[', .char ']'] := .bracket rfl .nil .nil
  refine ⟨tokens ++ [.char '[', .char ']'], hneat.append hbrackets, ?_, ?_⟩
  · rw [countDefault_append_cons (by decide), hcount]
    rfl
  · rw [spell_append, hspell, String.toList_append]
    rfl

/-- A text in parentheses after plain characters among which the keyword does not occur. -/
theorem Sealed.parentheses (h : Sealed n t) (hs : s.toList.all isPlain = true)
    (hcount : countDefault (unquoted s) = 0) : Sealed n (s ++ ("(" ++ t ++ ")")) := by
  obtain ⟨inner, hneat, hinner, hspell⟩ := h
  have hbrackets : Neat false (.char '(' :: (inner ++ [.char ')'])) :=
    .bracket rfl hneat.with_commas .nil
  refine ⟨unquoted s ++ .char '(' :: (inner ++ [.char ')']), hbrackets.plain_append hs, ?_, ?_⟩
  · rw [countDefault_append_cons (by decide), countDefault_append_cons (by decide), hcount, hinner,
      Nat.zero_add]
    rfl
  · rw [spell_append, spell_unquoted, spell_cons, spell_append, hspell]
    simp only [String.toList_append]
    rfl

theorem toList_enclosed {quote : String} {q : Char} (hquote : quote.toList = [q]) (text : String) :
    (enclosed quote text).toList = Token.spelling (.quoted q text.toList) := by
  rw [enclosed, String.toList_append, String.toList_append, String.toList_ofList, hquote]
  rfl

theorem sealed_quoteText_append (text : String) (hs : s.toList.all isPlain = true)
    (hcount : countDefault (unquoted s) = 0) : Sealed 0 (quoteText text ++ s) := by
  have hrest : Neat false (unquoted s ++ []) := .plain_append hs .nil
  rw [List.append_nil] at hrest
  refine ⟨.quoted '\x27' text.toList :: unquoted s, .quoted rfl (fun next hnext ↦ ?_) hrest, ?_, ?_⟩
  · obtain ⟨c, -, hc⟩ := List.mem_map.mp (List.mem_of_mem_head? hnext)
    exact ⟨c, hc.symm⟩
  · rw [countDefault_cons rfl, hcount]
  · rw [spell_cons, spell_unquoted, String.toList_append, quoteText,
      toList_enclosed (q := '\x27') rfl]

theorem sealed_quoteText (text : String) : Sealed 0 (quoteText text) := by
  have hall := sealed_quoteText_append (s := "") text rfl (by decide)
  rwa [String.append_empty] at hall

theorem allSealed_nil : AllSealed 0 [] :=
  ⟨[], nofun, rfl, rfl⟩

theorem AllSealed.cons (hs : Sealed m s) (hparts : AllSealed n parts) :
    AllSealed (m + n) (s :: parts) := by
  obtain ⟨item, hitem, hcount, hspell⟩ := hs
  obtain ⟨items, hitems, hsum, hspells⟩ := hparts
  refine ⟨item :: items, List.forall_mem_cons.mpr ⟨hitem, hitems⟩, ?_, ?_⟩
  · rw [List.map_cons, List.sum_cons, hcount, hsum]
  · rw [List.map_cons, List.map_cons, hspell, hspells]

theorem AllSealed.append (hparts : AllSealed m parts) (hothers : AllSealed n others) :
    AllSealed (m + n) (parts ++ others) := by
  obtain ⟨items, hitems, hsum, hspells⟩ := hparts
  obtain ⟨rest, hrest, hsum', hspells'⟩ := hothers
  refine ⟨items ++ rest, List.forall_mem_append.mpr ⟨hitems, hrest⟩, ?_, ?_⟩
  · rw [List.map_append, List.sum_append, hsum, hsum']
  · rw [List.map_append, List.map_append, hspells, hspells']

theorem allSealed_of_forall (h : ∀ part ∈ parts, Sealed 0 part) : AllSealed 0 parts := by
  induction parts with
  | nil => exact allSealed_nil
  | cons part parts ih =>
    rw [List.forall_mem_cons] at h
    exact .cons h.1 (ih h.2)

/-- What is spelled by items one after the other, each in some context. -/
theorem flatMap_spell {items : List (List Token)} (h : items.map spell = parts.map String.toList)
    (context : List Char → List Char) : (items.flatMap fun item ↦ context (spell item)) =
      parts.flatMap fun part ↦ context part.toList := by
  rw [← List.flatMap_map spell context, h, List.flatMap_map]

theorem toList_intercalate_comma (first : String) (rest : List String) :
    (", ".intercalate (first :: rest)).toList =
      first.toList ++ rest.flatMap fun part ↦ ',' :: ' ' :: part.toList := by
  rw [String.toList_intercalate, List.map_cons, Json.intercalate_cons, List.flatMap_map]
  rfl

/-- A list of sealed texts in brackets is sealed. -/
theorem sealed_array (h : ∀ part ∈ parts, Sealed 0 part) :
    Sealed 0 ("ARRAY[" ++ ", ".intercalate parts ++ "]") := by
  have hinner : ∃ inner, Neat true inner ∧ countDefault inner = 0 ∧
      spell inner = (", ".intercalate parts).toList := by
    cases parts with
    | nil => exact ⟨[], .nil, by decide, rfl⟩
    | cons part parts =>
      rw [List.forall_mem_cons] at h
      obtain ⟨first, hfirst, hcount, hspell⟩ := h.1
      obtain ⟨items, hitems, hsum, hspells⟩ := allSealed_of_forall h.2
      refine ⟨first ++ (items.map (.char ' ' :: ·)).flatMap (.char ',' :: ·), ?_, ?_, ?_⟩
      · refine hfirst.with_commas.joined fun item hitem ↦ .comma ?_
        obtain ⟨found, hfound, rfl⟩ := List.mem_map.mp hitem
        exact .plain rfl (hitems found hfound).with_commas
      · have hblank : (countDefault ∘ fun item ↦ .char ' ' :: item) = countDefault :=
          funext fun item ↦ countDefault_cons (by decide) item
        rw [countDefault_joined (by decide), List.map_map, hblank, hcount, hsum]
      · rw [spell_append, hspell, spell_flatMap, List.flatMap_map, toList_intercalate_comma,
          ← flatMap_spell hspells fun chars ↦ ',' :: ' ' :: chars]
        rfl
  obtain ⟨inner, hneat, hcount, hspell⟩ := hinner
  have hbrackets : Neat false (.char '[' :: (inner ++ [.char ']'])) := .bracket rfl hneat .nil
  refine ⟨unquoted "ARRAY" ++ .char '[' :: (inner ++ [.char ']']),
    hbrackets.plain_append (by decide), ?_, ?_⟩
  · rw [countDefault_append_cons (by decide), countDefault_append_cons (by decide), hcount]
    decide
  · rw [spell_append, spell_unquoted, spell_cons, spell_append, hspell]
    simp only [String.toList_append]
    rfl

end Sealed

/-! ## Types and literals -/

section Literals

variable {d : Dialect} {subject : Subject} {name literal : String}

theorem sealed_renderType {fallback : Bool} {type : ColumnType}
    (h : renderType (.of d) fallback subject type = .ok name) : Sealed 0 name := by
  induction type generalizing name with
  | primitive q =>
    have hplain {s : String} (hs : s.toList.all isPlain = true) (hcount : countDefault (unquoted s) = 0)
        (heq : s = name) : Sealed 0 name := heq ▸ sealed_plain hs hcount
    have hsized (s size : String) (hs : s.toList.all isPlain = true)
        (hcount : countDefault (unquoted s) = 0) (hsize : size.toList.all isPlain = true)
        (hcount' : countDefault (unquoted size) = 0) (heq : s ++ ("(" ++ size ++ ")") = name) :
        Sealed 0 name := heq ▸ (sealed_plain hsize hcount').parentheses hs hcount
    cases d <;> cases q <;> first
    | exact hplain (by decide) (by decide) (Except.ok.inj h)
    | exact hsized "VARCHAR" "255" (by decide) (by decide) (by decide) (by decide) (Except.ok.inj h)
    | exact hsized "DATETIME" "3" (by decide) (by decide) (by decide) (by decide) (Except.ok.inj h)
  | arrayOf element ih =>
    cases d with
    | postgres =>
      obtain ⟨inner, hinner, rfl⟩ := map_eq_ok_iff.mp h
      exact (ih hinner).append_brackets
    | _ =>
      cases fallback with
      | true =>
        obtain rfl := Except.ok.inj h
        exact sealed_plain (by decide) (by decide)
      | false => exact nomatch h

theorem sealed_castJson (d : Dialect) (value : Json) : Sealed 0 (castJson (.of d) value) := by
  cases d <;> exact sealed_quoteText_append value.compact (by decide) (by decide)

theorem sealed_renderJson (d : Dialect) (value : Json) : Sealed 0 (renderJson (.of d) value) := by
  have hcast := sealed_castJson d value
  cases d with
  | mysql =>
    have hall := hcast.parentheses (s := "") rfl (by decide)
    rwa [String.empty_append] at hall
  | _ => exact hcast

theorem isPlain_of_isNumeric {c : Char} (h : Json.isNumeric c = true) : isPlain c = true :=
  isPlain_of_kind (by decide) h

theorem sealed_numeric {s : String} (h : ∀ c ∈ s.toList, Json.isNumeric c = true) : Sealed 0 s := by
  refine sealed_plain (List.all_eq_true.mpr fun c hc ↦ isPlain_of_isNumeric (h c hc)) ?_
  refine countDefault_eq_zero (c := 'D') (by decide) fun hmem ↦ ?_
  obtain ⟨c, hc, heq⟩ := List.mem_map.mp hmem
  obtain rfl := Token.char.inj heq
  exact absurd (h _ hc) (by decide)

theorem exists_of_renderDate {text : String} (h : renderDate (.of d) text = .ok literal) :
    ∃ shown, literal = quoteText shown := by
  cases d with
  | mysql =>
    simp only [renderDate, Profile.of, Profile.mysql] at h
    split at h
    · cases h
    · split at h
      · exact ⟨_, (Except.ok.inj h).symm⟩
      · cases h
  | _ => exact ⟨text, (Except.ok.inj h).symm⟩

/-- The literal of a value of a primitive type is sealed, whether or not the value is of that type. -/
theorem sealed_renderScalar {q : Primitive} {value : Json}
    (h : renderScalar (.of d) q value = .ok literal) : Sealed 0 literal := by
  unfold renderScalar at h
  split at h
  · obtain rfl := Except.ok.inj h
    exact sealed_renderJson d _
  · obtain ⟨shown, rfl⟩ := exists_of_renderDate h
    exact sealed_quoteText shown
  · obtain rfl := Except.ok.inj h
    exact sealed_quoteText _
  · obtain rfl := Except.ok.inj h
    exact sealed_numeric fun c hc ↦ Json.isNumeric_of_mem_ofInt hc
  · obtain rfl := Except.ok.inj h
    exact sealed_numeric (Finite64.numeric_text _).1
  · obtain rfl := Except.ok.inj h
    cases d <;> split_ifs <;> exact sealed_plain (by decide) (by decide)
  · obtain rfl := Except.ok.inj h
    exact sealed_renderJson d _

theorem sealed_null : Sealed 0 "NULL" :=
  sealed_plain (by decide) (by decide)

theorem sealed_renderElement {type : ColumnType} {value : Json}
    (h : renderElement (.of d) type value = .ok literal) : Sealed 0 literal := by
  induction type generalizing value literal with
  | primitive q =>
    cases q with
    | json =>
      cases value with
      | null => exact Except.ok.inj h ▸ sealed_null
      | _ => exact Except.ok.inj h ▸ sealed_castJson d _
    | _ =>
      cases value with
      | null => exact Except.ok.inj h ▸ sealed_null
      | _ => exact sealed_renderScalar h
  | arrayOf element ih =>
    cases value with
    | null => exact Except.ok.inj h ▸ sealed_null
    | array items =>
      rw [renderElement, bind_eq_ok_iff] at h
      obtain ⟨parts, hparts, hliteral⟩ := h
      rw [← Except.ok.inj hliteral]
      refine sealed_array fun part hpart ↦ ?_
      obtain ⟨item, -, hitem⟩ := exists_of_forall₂_of_mem (mapM_eq_ok_iff.mp hparts) hpart
      exact ih hitem
    | _ => exact Except.ok.inj h ▸ sealed_castJson d _

/-- The literal of a default is sealed, whatever the default is. -/
theorem sealed_renderDefault {type : ColumnType} {value : Json}
    (h : renderDefault (.of d) subject type value = .ok literal) : Sealed 0 literal := by
  cases type with
  | primitive q =>
    cases value with
    | null => exact Except.ok.inj h ▸ sealed_null
    | _ => exact sealed_renderScalar h
  | arrayOf element =>
    cases value with
    | null => exact Except.ok.inj h ▸ sealed_null
    | _ =>
      cases d with
      | postgres =>
        have hnative : (Profile.of .postgres).nativeArrays = true := rfl
        simp only [renderDefault, hnative, if_true, bind_eq_ok_iff, mapError_eq_ok_iff] at h
        obtain ⟨type, htype, body, hbody, hliteral⟩ := h
        rw [← Except.ok.inj hliteral]
        exact (sealed_renderElement hbody).append rfl (by decide) (sealed_renderType htype)
      | _ => exact Except.ok.inj h ▸ sealed_renderJson _ _

end Literals

/-! ## Columns and keys -/

namespace Generator

variable {g : Generator} {d : Dialect} {entity name definition : String} {c : Column}

theorem sealed_currentTimestamp (d : Dialect) : Sealed 0 (Profile.of d).currentTimestamp := by
  cases d with
  | mysql =>
    have hdigits : Sealed 0 "3" := sealed_plain (by decide) (by decide)
    exact hdigits.parentheses (s := "CURRENT_TIMESTAMP") (by decide) (by decide)
  | _ => exact sealed_plain (by decide) (by decide)

/-- The keyword occurs once in each clause of a default. -/
theorem allSealed_defaultClause (hprofile : g.profile = .of d) {default : List String}
    (h : g.defaultClause entity name c = .ok default) : AllSealed default.length default := by
  have hclause : ∀ clause ∈ default, Sealed 1 clause := by
    intro clause hclause
    obtain ⟨literal, rfl, hliteral⟩ := mem_defaultClause h hclause
    have hsealed : Sealed 0 literal := by
      rw [hprofile] at hliteral
      rcases hliteral with rfl | ⟨value, hvalue⟩
      · exact sealed_currentTimestamp d
      · exact sealed_renderDefault hvalue
    have hkeyword : Sealed 1 "DEFAULT" := sealed_plain (by decide) (by decide)
    have hall : Sealed (1 + 0) ("DEFAULT" ++ " " ++ literal) :=
      hkeyword.append rfl (by decide) hsealed
    exact hall
  clear h
  induction default with
  | nil => exact allSealed_nil
  | cons clause default ih =>
    rw [List.forall_mem_cons] at hclause
    rw [List.length_cons, Nat.add_comm]
    exact .cons hclause.1 (ih hclause.2)

theorem allSealed_clauses (hprofile : g.profile = .of d) {default : List String}
    (h : g.defaultClause entity name c = .ok default) :
    AllSealed default.length (g.clauses c default) := by
  have hnull : AllSealed 0 (if c.acceptsNull then [] else ["NOT NULL"]) := by
    split_ifs
    · exact allSealed_nil
    · exact .cons (m := 0) (sealed_plain (by decide) (by decide)) allSealed_nil
  have hunique : AllSealed 0 (if c.db.unique && !c.db.primary then ["UNIQUE"] else []) := by
    split_ifs
    · exact .cons (m := 0) (sealed_plain (by decide) (by decide)) allSealed_nil
    · exact allSealed_nil
  have hcomment : AllSealed 0 (g.commentClause c) := by
    refine allSealed_of_forall fun clause hclause ↦ ?_
    obtain ⟨comment, rfl⟩ := mem_commentClause hclause
    have hkeyword : Sealed 0 "COMMENT" := sealed_plain (by decide) (by decide)
    have hall : Sealed (0 + 0) ("COMMENT" ++ " " ++ quoteText comment) :=
      hkeyword.append rfl (by decide) (sealed_quoteText comment)
    exact hall
  have hall := ((hnull.append (allSealed_defaultClause hprofile h)).append hunique).append hcomment
  rwa [Nat.zero_add] at hall

theorem spelling_nameToken (hprofile : g.profile = .of d) (hdialect : d = .postgres ∨ d = .sqlite)
    (name : String) : (nameToken name).spelling = (g.profile.identifier name).toList := by
  rw [hprofile]
  rcases hdialect with rfl | rfl <;> exact (toList_enclosed rfl name).symm

/-- The definition of a column is spelled by the tokens of its name and others.  The keyword occurs once for
each clause of a default, and as often as in the name. -/
theorem exists_tokens_of_name (hprofile : g.profile = .of d) {first : List Token}
    (hfirst : Neat false first) (hspell : spell first = (g.profile.identifier name).toList)
    (h : g.columnDefinition entity name c = .ok definition) :
    ∃ rest default, Neat false (first ++ rest) ∧ spell (first ++ rest) = definition.toList ∧
      g.defaultClause entity name c = .ok default ∧
      countDefault (first ++ rest) = countDefault first + default.length := by
  obtain ⟨type, default, htype, hdefault, rfl⟩ := columnDefinition_eq_ok_iff.mp h
  rw [hprofile] at htype
  obtain ⟨items, hitems, hsum, hspells⟩ :=
    (allSealed_clauses hprofile hdefault).cons (sealed_renderType htype)
  refine ⟨items.flatMap (.char ' ' :: ·), default,
    hfirst.joined fun item hitem ↦ .plain rfl (hitems item hitem), ?_, hdefault, ?_⟩
  · rw [spell_append, spell_flatMap, flatMap_spell hspells fun chars ↦ ' ' :: chars,
      toList_definition, hspell]
    rfl
  · rw [countDefault_joined (by decide), hsum, Nat.zero_add]

/-- The definition of a column is spelled by neat tokens that begin with the name of the column. -/
theorem exists_tokens_columnDefinition (hprofile : g.profile = .of d)
    (hdialect : d = .postgres ∨ d = .sqlite)
    (h : g.columnDefinition entity name c = .ok definition) :
    ∃ rest, Neat false (nameToken name :: rest) ∧
      spell (nameToken name :: rest) = definition.toList := by
  have hname : spell [nameToken name] = (g.profile.identifier name).toList := by
    rw [spell_cons, spell_nil, List.append_nil, spelling_nameToken hprofile hdialect]
  obtain ⟨rest, -, hneat, hspell, -⟩ :=
    exists_tokens_of_name hprofile (neat_nameToken name) hname h
  exact ⟨rest, hneat, hspell⟩

end Generator

end EntityCompiler.Sql
