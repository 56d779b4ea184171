import EntityCompiler.Proofs.Json.Escaped
import EntityCompiler.Proofs.Sql.Literal

/-!
# Literals where a backslash escapes

One of the dialects reads a backslash in a literal together with the character after it, but literals are
quoted alike for all dialects: only quotes are written twice.  A literal is read as the text it was made
from exactly when each backslash of the text stands before a wildcard, where it is kept.
-/

namespace EntityCompiler.Sql

namespace Escapes

/-! ## Reading -/

/-- The wildcards of patterns, before which a backslash is kept. -/
def isWildcard (c : Char) : Bool :=
  c = '%' || c = '_'

/-- What a backslash and the character after it stand for. -/
def unescape (c : Char) : List Char :=
  if isWildcard c then ['\\', c]
  else if c = 'n' then ['\n']
  else if c = 't' then ['\t']
  else if c = 'r' then ['\r']
  else if c = '0' then [Char.ofNat 0]
  else if c = 'b' then [Char.ofNat 8]
  else if c = 'Z' then [Char.ofNat 26]
  else [c]

/-- What has been read with more characters before it. -/
def prepend (text : List Char) (read : List Char × List Char) : List Char × List Char :=
  (text ++ read.1, read.2)

/-- The text of a literal after its opening quote, and what follows its closing quote. -/
def readRest : List Char → Option (List Char × List Char)
  | [] => none
  | c :: rest =>
    if c = '\x27' then
      match rest with
      | [] => some ([], [])
      | d :: rest =>
        if d = '\x27' then (readRest rest).map (prepend ['\x27']) else some ([], d :: rest)
    else if c = '\\' then
      match rest with
      | [] => none
      | d :: rest => (readRest rest).map (prepend (unescape d))
    else (readRest rest).map (prepend [c])

/-- The text of the literal that an input begins with, and what follows the literal. -/
def readLiteral : List Char → Option (List Char × List Char)
  | [] => none
  | c :: rest => if c = '\x27' then readRest rest else none

/-- Whether a literal is read to its end and as a given text, whatever follows, unless that is a
quote. -/
def Denotes (literal text : String) : Prop :=
  ∀ rest : List Char, (∀ c ∈ rest.head?, c ≠ '\x27') →
    readLiteral (literal.toList ++ rest) = some (text.toList, rest)

/-! ### Single steps -/

section Steps

variable {c : Char} {rest text : List Char}

theorem readRest_plain (hquote : c ≠ '\x27') (hback : c ≠ '\\') :
    readRest (c :: rest) = (readRest rest).map (prepend [c]) := by
  rw [readRest.eq_def]
  simp [hquote, hback]

theorem readRest_twice :
    readRest ('\x27' :: '\x27' :: rest) = (readRest rest).map (prepend ['\x27']) := by
  simp [readRest]

theorem readRest_closed (h : ∀ c ∈ rest.head?, c ≠ '\x27') :
    readRest ('\x27' :: rest) = some ([], rest) := by
  cases rest with
  | nil => rfl
  | cons c rest =>
    have hc : c ≠ '\x27' := h c rfl
    simp [readRest, hc]

theorem readRest_back :
    readRest ('\\' :: c :: rest) = (readRest rest).map (prepend (unescape c)) := by
  simp [readRest]

@[simp]
theorem unescape_of_isWildcard (h : isWildcard c = true) : unescape c = ['\\', c] := by
  rw [unescape, if_pos h]

/-- Before any other character, a backslash stands for one character with it. -/
theorem exists_unescape (h : isWildcard c = false) :
    ∃ d, unescape c = [d] ∧ (d = '\\' → c = '\\') := by
  unfold unescape
  rw [if_neg (by simp [h])]
  split_ifs
  all_goals exact ⟨_, rfl, by first | exact id | exact fun h ↦ absurd h (by decide)⟩

end Steps

/-! ### The length of what is read -/

theorem length_unescape_add_count (c : Char) :
    2 * (unescape c).length + [c].count '\x27' ≤ 4 := by
  cases hwildcard : isWildcard c with
  | true =>
    have hquote : c ≠ '\x27' := by
      rintro rfl
      exact absurd hwildcard (by decide)
    simp [hwildcard, hquote]
  | false =>
    obtain ⟨d, hd, -⟩ := exists_unescape hwildcard
    have hcount : [c].count '\x27' ≤ [c].length := List.count_le_length
    simp only [List.length_singleton] at hcount
    rw [hd, List.length_singleton]
    omega

theorem exists_of_map_prepend {first : List Char} {read : Option (List Char × List Char)}
    {text rest : List Char} (h : read.map (prepend first) = some (text, rest)) :
    ∃ inner, read = some (inner, rest) ∧ text = first ++ inner := by
  obtain ⟨⟨inner, after⟩, hread, heq⟩ := Option.map_eq_some_iff.mp h
  obtain ⟨rfl, rfl⟩ := Prod.mk.inj heq
  exact ⟨inner, hread, rfl⟩

theorem map_prepend_eq_iff (first : List Char) {read : Option (List Char × List Char)}
    {text rest : List Char} : read.map (prepend first) = some (first ++ text, rest) ↔
      read = some (text, rest) := by
  constructor
  · intro h
    obtain ⟨inner, hinner, heq⟩ := exists_of_map_prepend h
    rw [hinner, List.append_cancel_left heq]
  · intro h
    rw [h]
    rfl

/-- A quote that is read has cost two quotes, or a backslash and a quote, so that the quotes of an input
bound the length of what is read. -/
theorem length_of_readRest {input text rest : List Char} (h : readRest input = some (text, rest)) :
    2 * text.length + input.count '\x27' + 2 * rest.length <
      2 * input.length + rest.count '\x27' := by
  induction input using readRest.induct generalizing text with
  | case1 => cases h
  | case2 =>
    cases h
    decide
  | case3 input ih =>
    rw [readRest_twice] at h
    obtain ⟨inner, hinner, rfl⟩ := exists_of_map_prepend h
    have hlength := ih hinner
    simp only [List.length_append, List.length_cons, List.length_nil, List.count_cons_self]
    omega
  | case4 d input hd =>
    have hclosed : readRest ('\x27' :: d :: input) = some ([], d :: input) := by
      apply readRest_closed
      intro c hc
      obtain rfl := Option.some.inj hc
      exact hd
    rw [hclosed] at h
    cases h
    simp only [List.length_nil, List.length_cons, List.count_cons_self]
    omega
  | case5 =>
    exact absurd h (by simp [readRest])
  | case6 d input _ ih =>
    rw [readRest_back] at h
    obtain ⟨inner, hinner, rfl⟩ := exists_of_map_prepend h
    have hlength := ih hinner
    have hescape := length_unescape_add_count d
    have hcount : (d :: input).count '\x27' = [d].count '\x27' + input.count '\x27' := by
      rw [← List.count_append, List.singleton_append]
    rw [List.count_cons_of_ne (by decide), hcount]
    simp only [List.length_append, List.length_cons]
    omega
  | case7 c input hquote hback ih =>
    rw [readRest_plain hquote hback] at h
    obtain ⟨inner, hinner, rfl⟩ := exists_of_map_prepend h
    have hlength := ih hinner
    rw [List.count_cons_of_ne hquote]
    simp only [List.length_append, List.length_cons, List.length_nil]
    omega

/-! ### Quoted texts -/

theorem count_doubled (text : List Char) :
    (doubled ['\x27'] text).length = text.length + text.count '\x27' ∧
      (doubled ['\x27'] text).count '\x27' = 2 * text.count '\x27' := by
  induction text with
  | nil => exact ⟨rfl, rfl⟩
  | cons c text ih =>
    obtain ⟨hlength, hcount⟩ := ih
    by_cases hc : c = '\x27'
    · rw [hc, doubled_cons_self]
      simp only [List.length_cons, List.count_cons_self, hlength, hcount]
      omega
    · rw [doubled_cons_of_ne hc, List.count_cons_of_ne hc, List.count_cons_of_ne hc, hcount]
      simp only [List.length_cons, hlength, and_true]
      omega

/-- If a literal is read to its end, then the text that is read is not longer than the one that it was
made from. -/
theorem length_le_of_readRest {text read rest : List Char}
    (h : readRest (doubled ['\x27'] text ++ '\x27' :: rest) = some (read, rest)) :
    read.length ≤ text.length := by
  have hread := length_of_readRest h
  obtain ⟨hlength, hcount⟩ := count_doubled text
  rw [List.count_append, List.length_append, List.count_cons_self, hlength, hcount,
    List.length_cons] at hread
  omega

/-! ## Texts that are read back -/

/-- Whether each backslash stands before a wildcard. -/
def KeepsBackslashes (text : List Char) : Prop :=
  ∀ before after, text = before ++ '\\' :: after → ∃ c ∈ after.head?, isWildcard c = true

section Keeps

variable {c : Char} {text : List Char}

theorem keepsBackslashes_nil : KeepsBackslashes [] := by
  intro before after h
  exact absurd h.symm (by simp)

theorem keepsBackslashes_cons_iff : KeepsBackslashes (c :: text) ↔
    (c = '\\' → ∃ d ∈ text.head?, isWildcard d = true) ∧ KeepsBackslashes text := by
  constructor
  · intro h
    refine ⟨fun hc ↦ h [] text (by rw [hc, List.nil_append]), fun before after htext ↦ ?_⟩
    exact h (c :: before) after (by rw [htext, List.cons_append])
  · intro ⟨hfirst, hrest⟩ before after htext
    cases before with
    | nil =>
      obtain ⟨hc, rfl⟩ := List.cons.inj htext
      exact hfirst hc
    | cons d before => exact hrest before after (List.cons.inj htext).2

theorem keepsBackslashes_wildcard_iff (h : isWildcard c = true) :
    KeepsBackslashes ('\\' :: c :: text) ↔ KeepsBackslashes text := by
  have hc : c ≠ '\\' := by
    rintro rfl
    exact absurd h (by decide)
  rw [keepsBackslashes_cons_iff, keepsBackslashes_cons_iff]
  simp [h, hc]

theorem keepsBackslashes_of_notMem (h : '\\' ∉ text) : KeepsBackslashes text := by
  intro before after htext
  rw [htext] at h
  exact absurd (List.mem_append_right before List.mem_cons_self) h

theorem not_keepsBackslashes_of_escape (hc : isWildcard c = false) (h : ['\\', c] <:+: text) :
    ¬KeepsBackslashes text := by
  obtain ⟨before, after, rfl⟩ := h
  intro hkeeps
  obtain ⟨d, hd, hwildcard⟩ := hkeeps before (c :: after) (by simp)
  obtain rfl := Option.some.inj hd
  exact absurd (hc.symm.trans hwildcard) (by decide)

end Keeps

section Quoted

variable {c : Char} {text rest : List Char}

theorem readRest_doubled_cons (hback : c ≠ '\\') :
    readRest (doubled ['\x27'] (c :: text) ++ '\x27' :: rest) =
      (readRest (doubled ['\x27'] text ++ '\x27' :: rest)).map (prepend [c]) := by
  by_cases hc : c = '\x27'
  · rw [hc, doubled_cons_self]
    exact readRest_twice
  · rw [doubled_cons_of_ne hc]
    exact readRest_plain hc hback

theorem readRest_doubled_wildcard (hc : isWildcard c = true) :
    readRest (doubled ['\x27'] ('\\' :: c :: text) ++ '\x27' :: rest) =
      (readRest (doubled ['\x27'] text ++ '\x27' :: rest)).map (prepend ['\\', c]) := by
  have hquote : c ≠ '\x27' := by
    rintro rfl
    exact absurd hc (by decide)
  rw [doubled_cons_of_ne (by decide), doubled_cons_of_ne hquote, ← unescape_of_isWildcard hc]
  exact readRest_back

/-- After a backslash that does not stand before a wildcard, another text is read: it does not begin
with a backslash, or its rest is too short. -/
theorem readRest_doubled_ne (h : ∀ c ∈ text.head?, isWildcard c = false) :
    readRest (doubled ['\x27'] ('\\' :: text) ++ '\x27' :: rest) ≠ some ('\\' :: text, rest) := by
  have hother {d e : Char} (hunescape : unescape d = [e]) (he : e ≠ '\\') (input : List Char) :
      readRest ('\\' :: d :: input) ≠ some ('\\' :: text, rest) := by
    intro hread
    rw [readRest_back, hunescape] at hread
    obtain ⟨inner, -, heq⟩ := exists_of_map_prepend hread
    exact he (List.cons.inj heq).1.symm
  rw [doubled_cons_of_ne (by decide)]
  cases text with
  | nil => exact hother (d := '\x27') (e := '\x27') (by decide) (by decide) rest
  | cons d text =>
    by_cases hquote : d = '\x27'
    · subst hquote
      rw [doubled_cons_self]
      exact hother (d := '\x27') (e := '\x27') (by decide) (by decide) _
    · obtain ⟨e, hunescape, he⟩ := exists_unescape (h d rfl)
      rw [doubled_cons_of_ne hquote]
      by_cases hback : e = '\\'
      -- An escaped backslash stands for the first one, and only the length of the rest tells the
      -- texts apart.
      · intro hread
        have hinput : readRest ('\\' :: d :: (doubled ['\x27'] text ++ '\x27' :: rest)) =
            some ('\\' :: d :: text, rest) := hread
        rw [readRest_back, hunescape, hback] at hinput
        obtain ⟨inner, hinner, heq⟩ := exists_of_map_prepend hinput
        obtain rfl : d :: text = inner := (List.cons.inj heq).2
        exact Nat.not_succ_le_self _ (length_le_of_readRest hinner)
      · exact hother hunescape hback _

/-- Reading undoes quoting exactly where each backslash stands before a wildcard. -/
theorem readRest_eq_iff (hrest : ∀ c ∈ rest.head?, c ≠ '\x27') : (text : List Char) →
    (readRest (doubled ['\x27'] text ++ '\x27' :: rest) = some (text, rest) ↔ KeepsBackslashes text)
  | [] => by
    rw [doubled_nil, List.nil_append, readRest_closed hrest]
    exact iff_of_true rfl keepsBackslashes_nil
  | c :: text => by
    by_cases hback : c = '\\'
    · subst hback
      cases text with
      | nil =>
        refine iff_of_false (readRest_doubled_ne nofun) fun hkeeps ↦ ?_
        obtain ⟨d, hd, -⟩ := hkeeps [] [] rfl
        cases hd
      | cons d text =>
        cases hwildcard : isWildcard d with
        | true =>
          rw [readRest_doubled_wildcard hwildcard, keepsBackslashes_wildcard_iff hwildcard,
            ← readRest_eq_iff hrest text]
          exact map_prepend_eq_iff ['\\', d]
        | false =>
          refine iff_of_false (readRest_doubled_ne fun c hc ↦ ?_)
            (not_keepsBackslashes_of_escape hwildcard ⟨[], text, rfl⟩)
          obtain rfl := Option.some.inj hc
          exact hwildcard
    · have hkeeps : KeepsBackslashes (c :: text) ↔ KeepsBackslashes text := by
        rw [keepsBackslashes_cons_iff]
        simp [hback]
      rw [readRest_doubled_cons hback, hkeeps, ← readRest_eq_iff hrest text]
      exact map_prepend_eq_iff [c]

end Quoted

/-- A literal denotes the text that it was made from exactly when each backslash of the text stands
before a wildcard. -/
theorem denotes_quoteText_iff (text : String) :
    Denotes (quoteText text) text ↔ KeepsBackslashes text.toList := by
  have hread (rest : List Char) : readLiteral ((quoteText text).toList ++ rest) =
      readRest (doubled ['\x27'] text.toList ++ '\x27' :: rest) := by
    rw [toList_quoteText]
    simp [readLiteral]
  constructor
  · intro h
    have hnone : ∀ c ∈ ([] : List Char).head?, c ≠ '\x27' := nofun
    rw [← readRest_eq_iff hnone, ← hread]
    exact h [] hnone
  · intro h rest hrest
    rw [hread, readRest_eq_iff hrest]
    exact h

/-- The literal of a JSON text denotes it exactly when no character in it has to be escaped. -/
theorem denotes_quoteText_compact_iff (value : Json) :
    Denotes (quoteText value.compact) value.compact ↔ value.Verbatim := by
  rw [denotes_quoteText_iff, Json.compact, String.toList_ofList]
  constructor
  · intro hkeeps
    by_contra hverbatim
    obtain ⟨kind, hkind, hescape⟩ := Json.exists_escape_of_not_verbatim hverbatim
    have hwildcard : isWildcard kind = false := by
      have hall : ['\x22', '\\', 'n', 'r', 't', 'b', 'f', 'u'].all (!isWildcard ·) = true := by decide
      simpa using List.all_eq_true.mp hall kind hkind
    exact not_keepsBackslashes_of_escape hwildcard hescape hkeeps
  · intro hverbatim
    exact keepsBackslashes_of_notMem (Json.not_mem_chars_of_verbatim hverbatim)

/-! ## Literals of the dialect -/

/-- A JSON default is a literal in parentheses, whatever the type of its column says of it. -/
theorem renderDefault_mysql_json {type : ColumnType} {value : Json}
    (htype : type = .primitive .json ∨ type.isArray = true) (hvalue : value ≠ .null)
    (subject : Subject) : renderDefault (.of .mysql) subject type value =
      .ok ("(" ++ quoteText value.compact ++ ")") := by
  have hcast : castJson (.of .mysql) value = quoteText value.compact := String.append_empty
  have hjson : renderJson (.of .mysql) value = "(" ++ quoteText value.compact ++ ")" := by
    rw [← hcast]
    rfl
  rw [← hjson]
  cases type with
  | primitive q =>
    obtain rfl : q = .json := by simpa [ColumnType.isArray] using htype
    cases value <;> first | rfl | exact absurd rfl hvalue
  | arrayOf element => cases value <;> first | rfl | exact absurd rfl hvalue

/-- Where a backslash escapes, the literal of a text, as a default or as a comment, is read to its end and
as that text exactly when each backslash of the text stands before a wildcard.  The literal of the JSON text
of a default is so read exactly when JSON allows all characters in the texts and keys of the default as they
are. -/
theorem denotes_rendered_iff {type : ColumnType} {value : Json}
    (htype : type = .primitive .json ∨ type.isArray = true) (hvalue : value ≠ .null)
    (subject : Subject) (text : String) :
    (∃ literal, renderDefault (.of .mysql) subject (.primitive .string) (.text text) = .ok literal ∧
      (Denotes literal text ↔ KeepsBackslashes text.toList)) ∧
    (∃ literal, Comment.clause? (.of .mysql) text = some ("COMMENT " ++ literal) ∧
      (Denotes literal text ↔ KeepsBackslashes text.toList)) ∧
    ∃ literal, renderDefault (.of .mysql) subject type value = .ok ("(" ++ literal ++ ")") ∧
      (Denotes literal value.compact ↔ value.Verbatim) :=
  ⟨⟨quoteText text, rfl, denotes_quoteText_iff text⟩,
    ⟨quoteText text, rfl, denotes_quoteText_iff text⟩,
    ⟨quoteText value.compact, renderDefault_mysql_json htype hvalue subject,
      denotes_quoteText_compact_iff value⟩⟩

/-- A pattern with a quote and with a backslash before a wildcard. -/
def quotedPattern : String :=
  "it\x27s 5\\%"

/-- A JSON value with quotes in a key and in a text. -/
def quotedObject : Json :=
  .object [("it\x27s", .array [.text "\x27\x27", .null])]

theorem denotes_rendered_iff_quoted :
    (∃ literal, renderDefault (.of .mysql) ⟨some "Book", "data"⟩ (.primitive .string)
      (.text quotedPattern) = .ok literal ∧ Denotes literal quotedPattern) ∧
    ((.primitive .json : ColumnType) = .primitive .json ∨
      (.primitive .json : ColumnType).isArray = true) ∧ quotedObject ≠ .null ∧
    ∃ literal, renderDefault (.of .mysql) ⟨some "Book", "data"⟩ (.primitive .json) quotedObject =
      .ok ("(" ++ literal ++ ")") ∧ Denotes literal quotedObject.compact := by
  have hkeeps : KeepsBackslashes quotedPattern.toList := by
    have hrest : KeepsBackslashes ("it\x27s 5".toList ++ ['\\', '%']) := by
      simp [keepsBackslashes_cons_iff, keepsBackslashes_nil, isWildcard]
    exact hrest
  have hverbatim : quotedObject.Verbatim := by
    simp [Json.Verbatim, quotedObject, Json.texts, textsOfMembers, textsOfItems, Json.isVerbatim]
  have hvalue : quotedObject ≠ .null := by
    simp [quotedObject]
  obtain ⟨⟨first, hfirst, htext⟩, -, second, hsecond, hjson⟩ :=
    denotes_rendered_iff (.inl rfl) hvalue ⟨some "Book", "data"⟩ quotedPattern
  exact ⟨⟨first, hfirst, htext.mpr hkeeps⟩, .inl rfl, hvalue, second, hsecond,
    hjson.mpr hverbatim⟩

/-- A backslash before a letter is lost: the literal is read as another text. -/
theorem not_denotes_rendered_path : ∃ literal,
    renderDefault (.of .mysql) ⟨some "Book", "path"⟩ (.primitive .string) (.text "C:\\new") =
      .ok literal ∧
    readLiteral literal.toList = some (['C', ':', '\n', 'e', 'w'], []) ∧
    ¬Denotes literal "C:\\new" := by
  have hread : readLiteral (quoteText "C:\\new").toList = some (['C', ':', '\n', 'e', 'w'], []) := by
    decide +kernel
  refine ⟨quoteText "C:\\new", rfl, hread, fun hdenotes ↦ ?_⟩
  have hsame := hdenotes [] nofun
  rw [List.append_nil, hread] at hsame
  exact absurd hsame (by decide)

end Escapes

end EntityCompiler.Sql
