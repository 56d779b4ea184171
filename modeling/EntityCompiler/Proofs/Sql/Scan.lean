import EntityCompiler.Proofs.Outcome
import EntityCompiler.Sql.Quote
import EntityCompiler.Text.Blank

/-!
# Scanning SQL texts

How a database reads the outline of a text.  A scan finds the quoted tokens: a quote opens one, the same
quote written twice inside is one quote character, and a lone one closes it.  The body in the first
parentheses is then split at the commas that stand outside of quotes, parentheses and brackets.

Neat tokens are read as they stand in any context: their brackets are matched, so that nothing inside
them splits what is around them.
-/

namespace EntityCompiler.Sql

/-- A token of a text. -/
inductive Token where
  /-- A character that stands outside of quotes. -/
  | char (c : Char)
  /-- A quoted text, in which every quote has been written twice. -/
  | quoted (quote : Char) (text : List Char)
deriving DecidableEq, Repr

namespace Token

/-- The characters of a token. -/
def spelling : Token → List Char
  | char c => [c]
  | quoted quote text => quote :: doubled [quote] text ++ [quote]

@[simp]
theorem spelling_char (c : Char) : (char c).spelling = [c] :=
  rfl

def isBlank : Token → Bool
  | char c => Text.isBlank c
  | quoted _ _ => false

end Token

/-- The characters of several tokens. -/
def spell (tokens : List Token) : List Char :=
  tokens.flatMap Token.spelling

/-- The tokens of a text without quotes. -/
def unquoted (text : String) : List Token :=
  text.toList.map .char

/-! ## Quoted tokens -/

/-- Whether a character opens a quoted token. -/
def isQuote (c : Char) : Bool :=
  c = '\x27' || c = '\x22'

/-- Where a scan stands. -/
inductive Scan where
  | outside
  /-- In a quoted token of which `text` has been read. -/
  | inside (quote : Char) (text : List Char)
  /-- After a quote that either closes the token or is the first of two. -/
  | pending (quote : Char) (text : List Char)

namespace Scan

/-- The scan after a character that does not belong to a quoted token before it, with the tokens that
are complete. -/
def start (c : Char) : Scan × List Token :=
  if isQuote c then (inside c [], []) else (outside, [.char c])

/-- The scan after one more character, with the tokens that are then complete. -/
def step : Scan → Char → Scan × List Token
  | outside, c => start c
  | inside quote text, c =>
    if c = quote then (pending quote text, []) else (inside quote (text ++ [c]), [])
  | pending quote text, c =>
    if c = quote then (inside quote (text ++ [quote]), [])
    else ((start c).1, .quoted quote text :: (start c).2)

/-- The tokens that the end of a text completes, unless a quoted token is still open. -/
def finish : Scan → Option (List Token)
  | outside => some []
  | inside _ _ => none
  | pending quote text => some [.quoted quote text]

/-- The tokens of the rest of a text. -/
def run : Scan → List Char → Option (List Token)
  | s, [] => s.finish
  | s, c :: rest => (run (s.step c).1 rest).map ((s.step c).2 ++ ·)

end Scan

/-- The tokens of a text, unless a quoted token is not closed. -/
def scan (text : String) : Option (List Token) :=
  Scan.outside.run text.toList

/-! ## Bodies -/

/-- The items of a body and what follows it. -/
structure Body where
  first : List Token
  others : List (List Token)
  after : List Token

namespace Body

def items (body : Body) : List (List Token) :=
  body.first :: body.others

/-- The body with a token before its first item. -/
def push (token : Token) (body : Body) : Body :=
  { body with first := token :: body.first }

/-- The body with an empty item before its first item. -/
def cut (body : Body) : Body :=
  { body with first := [], others := body.items }

end Body

/-- The bracket that closes a given one. -/
def closing? (c : Char) : Option Char :=
  if c = '(' then some ')' else if c = '[' then some ']' else none

/-- Splits a body at its commas, up to the parenthesis that closes it.  Inside of brackets, `expected`
has the brackets that close them, the innermost first. -/
def splitBody : (expected : List Char) → List Token → Option Body
  | _, [] => none
  | expected, .quoted quote text :: rest =>
    (splitBody expected rest).map (Body.push (.quoted quote text))
  | expected, .char c :: rest =>
    match closing? c with
    | some closer => (splitBody (closer :: expected) rest).map (Body.push (.char c))
    | none =>
      if c = ')' ∨ c = ']' then
        match expected with
        | [] => if c = ')' then some ⟨[], [], rest⟩ else none
        | closer :: others =>
          if c = closer then (splitBody others rest).map (Body.push (.char c)) else none
      else if c = ',' ∧ expected = [] then (splitBody [] rest).map Body.cut
      else (splitBody expected rest).map (Body.push (.char c))

/-- The body in the first parentheses. -/
def body? (tokens : List Token) : Option Body :=
  match tokens.dropWhile (· ≠ .char '(') with
  | [] => none
  | _ :: rest => splitBody [] rest

/-- The identifier that an item begins with. -/
def leadingName? (item : List Token) : Option String :=
  match item.dropWhile Token.isBlank with
  | .quoted '\x22' name :: _ => some (String.ofList name)
  | _ => none

/-- The identifier that is all of an item. -/
def soleName? (item : List Token) : Option String :=
  match item.filter (!·.isBlank) with
  | [.quoted '\x22' name] => some (String.ofList name)
  | _ => none

/-- The identifiers of an item that declares a primary key. -/
def keyNames? (item : List Token) : Option (List String) :=
  if (unquoted "PRIMARY KEY").isPrefixOf (item.dropWhile Token.isBlank) then do
    let body ← body? item
    body.items.mapM soleName?
  else none

/-! ## Neat tokens -/

/-- Whether a character has no part in the outline of a text. -/
def isPlain (c : Char) : Bool :=
  !(isQuote c || ['(', ')', '[', ']', ','].contains c)

/-- Whether no token is quoted that stands directly after another quoted one, brackets are matched and,
unless `commas` are allowed, commas stand in brackets only. -/
inductive Neat : (commas : Bool) → List Token → Prop
  | nil {commas : Bool} : Neat commas []
  | plain {commas : Bool} {c : Char} {tokens : List Token} :
      isPlain c = true → Neat commas tokens → Neat commas (.char c :: tokens)
  | comma {tokens : List Token} : Neat true tokens → Neat true (.char ',' :: tokens)
  | bracket {commas : Bool} {opener closer : Char} {inner tokens : List Token} :
      closing? opener = some closer → Neat true inner → Neat commas tokens →
      Neat commas (.char opener :: (inner ++ .char closer :: tokens))
  | quoted {commas : Bool} {quote : Char} {text : List Char} {tokens : List Token} :
      isQuote quote = true → (∀ next ∈ tokens.head?, ∃ c, next = .char c) → Neat commas tokens →
      Neat commas (.quoted quote text :: tokens)

/-! ### Characters -/

theorem closing?_eq_some_iff {opener closer : Char} : closing? opener = some closer ↔
    (opener = '(' ∧ closer = ')') ∨ (opener = '[' ∧ closer = ']') := by
  unfold closing?
  split_ifs with hparenthesis hbracket
  · subst hparenthesis
    simp [eq_comm]
  · subst hbracket
    simp [eq_comm]
  · simp [hparenthesis, hbracket]

theorem isPlain_iff {c : Char} : isPlain c = true ↔
    isQuote c = false ∧ c ≠ '(' ∧ c ≠ ')' ∧ c ≠ '[' ∧ c ≠ ']' ∧ c ≠ ',' := by
  simp [isPlain]

/-- Characters of a kind to which no quote, bracket or comma belongs are plain. -/
theorem isPlain_of_kind {kind : Char → Bool}
    (hmarks : ['\x27', '\x22', '(', ')', '[', ']', ','].all (!kind ·) = true) {c : Char}
    (h : kind c = true) : isPlain c = true := by
  have hother : ∀ mark ∈ ['\x27', '\x22', '(', ')', '[', ']', ','], c ≠ mark := by
    intro mark hmark heq
    have hnot := List.all_eq_true.mp hmarks mark hmark
    rw [← heq, h] at hnot
    exact absurd hnot (by decide)
  simp only [List.forall_mem_cons] at hother
  obtain ⟨hsingle, hdouble, hopen, hclose, hopen', hclose', hcomma, -⟩ := hother
  exact isPlain_iff.mpr ⟨by simp [isQuote, hsingle, hdouble], hopen, hclose, hopen', hclose', hcomma⟩

theorem isPlain_of_isBlank {c : Char} (h : Text.isBlank c = true) : isPlain c = true :=
  isPlain_of_kind (by decide) h

theorem isQuote_of_neat {commas : Bool} {c : Char} {tokens : List Token}
    (h : Neat commas (.char c :: tokens)) : isQuote c = false := by
  cases h with
  | plain hplain _ => exact (isPlain_iff.mp hplain).1
  | comma _ => rfl
  | bracket hcloser _ _ => rcases closing?_eq_some_iff.mp hcloser with ⟨rfl, -⟩ | ⟨rfl, -⟩ <;> rfl

theorem ne_of_mem_unquoted {text : String} (htext : text.toList.all isPlain = true) {token : Token}
    (h : token ∈ unquoted text) : token ≠ .char '(' := by
  obtain ⟨c, hc, rfl⟩ := List.mem_map.mp h
  intro heq
  exact (isPlain_iff.mp (List.all_eq_true.mp htext c hc)).2.1 (Token.char.inj heq)

/-! ### Building neat tokens -/

namespace Neat

variable {commas : Bool} {c : Char} {tokens others : List Token}

theorem with_commas (h : Neat commas tokens) : Neat true tokens := by
  induction h with
  | nil => exact .nil
  | plain hplain _ ih => exact .plain hplain ih
  | comma _ ih => exact .comma ih
  | bracket hcloser hinner _ _ ih => exact .bracket hcloser hinner ih
  | quoted hquote hnext _ ih => exact .quoted hquote hnext ih

/-- Neat tokens may be followed by others that do not begin with a quoted one. -/
theorem append (h : Neat commas tokens) (hothers : Neat commas (.char c :: others)) :
    Neat commas (tokens ++ .char c :: others) := by
  induction h with
  | nil => exact hothers
  | plain hplain _ ih => exact .plain hplain (ih hothers)
  | comma _ ih => exact .comma (ih hothers)
  | @bracket _ opener closer inner tokens hcloser hinner _ _ ih =>
    have hall := Neat.bracket hcloser hinner (ih hothers)
    simpa only [List.cons_append, List.append_assoc] using hall
  | @quoted _ quote text tokens hquote hnext _ ih =>
    refine .quoted hquote (fun next hmem ↦ ?_) (ih hothers)
    cases tokens with
    | nil => exact ⟨c, (Option.some.inj hmem).symm⟩
    | cons first tokens => exact hnext next hmem

theorem plain_append {text : String} (htext : text.toList.all isPlain = true)
    (h : Neat commas tokens) : Neat commas (unquoted text ++ tokens) := by
  rw [unquoted]
  generalize text.toList = cs at htext
  induction cs with
  | nil => exact h
  | cons c cs ih =>
    rw [List.all_cons, Bool.and_eq_true] at htext
    exact .plain htext.1 (ih htext.2)

/-- Neat parts with a character before each of them but the first. -/
theorem joined {first : List Token} {parts : List (List Token)} (hfirst : Neat commas first)
    (hparts : ∀ part ∈ parts, Neat commas (.char c :: part)) :
    Neat commas (first ++ parts.flatMap (.char c :: ·)) := by
  induction parts generalizing first with
  | nil => simpa using hfirst
  | cons part parts ih =>
    rw [List.forall_mem_cons] at hparts
    have hall := ih (hfirst.append hparts.1) hparts.2
    simpa only [List.flatMap_cons, List.append_assoc, List.cons_append] using hall

end Neat

/-! ### Scanning -/

@[simp]
theorem spell_nil : spell [] = [] :=
  rfl

@[simp]
theorem spell_cons (token : Token) (tokens : List Token) :
    spell (token :: tokens) = token.spelling ++ spell tokens :=
  List.flatMap_cons

@[simp]
theorem spell_append (tokens others : List Token) :
    spell (tokens ++ others) = spell tokens ++ spell others :=
  List.flatMap_append

@[simp]
theorem spell_unquoted (text : String) : spell (unquoted text) = text.toList := by
  rw [spell, unquoted, List.flatMap_map]
  exact List.flatMap_singleton' _

theorem spell_flatMap (c : Char) (parts : List (List Token)) :
    spell (parts.flatMap (.char c :: ·)) = parts.flatMap fun part ↦ c :: spell part := by
  rw [spell, List.flatMap_assoc]
  rfl

namespace Scan

theorem run_outside_char {c : Char} (hc : isQuote c = false) (rest : List Char) :
    outside.run (c :: rest) = (outside.run rest).map (.char c :: ·) := by
  simp [run, step, start, hc]

/-- The characters between quotes are read as they were before the quotes among them were written
twice. -/
theorem run_inside (quote : Char) (done text rest : List Char) :
    (inside quote done).run (doubled [quote] text ++ quote :: rest) =
      (pending quote (done ++ text)).run rest := by
  induction text generalizing done with
  | nil => simp [doubled_nil, run, step]
  | cons c text ih =>
    by_cases hc : c = quote
    · have htwice := ih (done ++ [quote])
      simp only [List.append_assoc, List.singleton_append] at htwice
      rw [hc, doubled_cons_self]
      simp [run, step, htwice]
    · have honce := ih (done ++ [c])
      simp only [List.append_assoc, List.singleton_append] at honce
      rw [doubled_cons_of_ne hc]
      simp [run, step, hc, honce]

/-- A quote that is not written twice closes its token. -/
theorem run_pending {quote : Char} {text rest : List Char} (h : ∀ c ∈ rest.head?, c ≠ quote) :
    (pending quote text).run rest = (outside.run rest).map (.quoted quote text :: ·) := by
  cases rest with
  | nil => rfl
  | cons c rest =>
    have hc : c ≠ quote := h c rfl
    simp [run, step, hc, Function.comp_def]

/-- Neat tokens are found again in what they spell, unless a quote follows. -/
theorem run_spell {commas : Bool} {tokens : List Token} (h : Neat commas tokens) {rest : List Char}
    (hrest : ∀ c ∈ rest.head?, isQuote c = false) :
    outside.run (spell tokens ++ rest) = (outside.run rest).map (tokens ++ ·) := by
  induction h generalizing rest with
  | nil => simp
  | plain hplain _ ih =>
    have hchar := run_outside_char (isPlain_iff.mp hplain).1
    simp [Token.spelling, hchar, ih hrest, Function.comp_def]
  | comma _ ih =>
    have hchar := run_outside_char (c := ',') rfl
    simp [Token.spelling, hchar, ih hrest, Function.comp_def]
  | @bracket _ opener closer inner tokens hcloser hinner htokens ihinner ih =>
    have hquotes : isQuote opener = false ∧ isQuote closer = false := by
      rcases closing?_eq_some_iff.mp hcloser with ⟨rfl, rfl⟩ | ⟨rfl, rfl⟩ <;> exact ⟨rfl, rfl⟩
    have hafter : ∀ c ∈ (closer :: (spell tokens ++ rest)).head?, isQuote c = false := by
      intro c hc
      obtain rfl := Option.some.inj hc
      exact hquotes.2
    have hinside := ihinner hafter
    simp [Token.spelling, run_outside_char hquotes.1, run_outside_char hquotes.2, hinside, ih hrest,
      Function.comp_def]
  | @quoted _ quote text tokens hquote hnext htokens ih =>
    have hafter : ∀ c ∈ (spell tokens ++ rest).head?, c ≠ quote := by
      intro c hc
      have hplain : isQuote c = false := by
        cases tokens with
        | nil => exact hrest c hc
        | cons next tokens =>
          obtain ⟨d, rfl⟩ := hnext next rfl
          obtain rfl := Option.some.inj hc
          exact isQuote_of_neat htokens
      rintro rfl
      simp [hquote] at hplain
    have hopen (rest : List Char) : outside.run (quote :: rest) = (inside quote []).run rest := by
      simp [run, step, start, hquote]
    simp [Token.spelling, hopen, run_inside, run_pending hafter, ih hrest, Function.comp_def]

end Scan

/-- Neat tokens are what is found in the text that they spell. -/
theorem scan_eq_some_of_neat {commas : Bool} {tokens : List Token} (h : Neat commas tokens)
    {text : String} (htext : spell tokens = text.toList) : scan text = some tokens := by
  have hrun : Scan.outside.run (spell tokens ++ []) = (Scan.outside.run []).map (tokens ++ ·) :=
    Scan.run_spell h nofun
  rw [List.append_nil] at hrun
  rw [scan, ← htext, hrun]
  simp [Scan.run, Scan.finish]

example : scan "\x22a\x27b\x22(\x27c\x27\x27,\x27)" = some [.quoted '\x22' ['a', '\x27', 'b'],
    .char '(', .quoted '\x27' ['c', '\x27', ','], .char ')'] := by
  decide

/-! ### Splitting -/

/-- Neat tokens stay together when a body is split; inside of brackets they may have commas. -/
theorem splitBody_append {commas : Bool} {tokens : List Token} (h : Neat commas tokens)
    {expected : List Char} (hexpected : commas = true → expected ≠ []) (rest : List Token) :
    splitBody expected (tokens ++ rest) =
      (splitBody expected rest).map fun body ↦ { body with first := tokens ++ body.first } := by
  induction h generalizing expected rest with
  | nil => simp
  | @plain _ c tokens hplain _ ih =>
    obtain ⟨-, hopen, hclose, hopen', hclose', hcomma⟩ := isPlain_iff.mp hplain
    simp [splitBody, closing?, hopen, hclose, hopen', hclose', hcomma, ih hexpected, Body.push,
      Function.comp_def]
  | comma _ ih =>
    simp [splitBody, closing?, hexpected rfl, ih hexpected, Body.push, Function.comp_def]
  | @bracket _ opener closer inner tokens hcloser _ _ ihinner ih =>
    have hinside := @ihinner (closer :: expected) (fun _ ↦ List.cons_ne_nil _ _)
      (.char closer :: (tokens ++ rest))
    have hclose : closing? closer = none ∧ (closer = ')' ∨ closer = ']') := by
      rcases closing?_eq_some_iff.mp hcloser with ⟨rfl, rfl⟩ | ⟨rfl, rfl⟩ <;> exact ⟨rfl, by decide⟩
    simp [splitBody, hcloser, hinside, hclose, ih hexpected, Body.push, Function.comp_def]
  | quoted _ _ _ ih => simp [splitBody, ih hexpected, Body.push, Function.comp_def]

/-- A body of neat items that are separated by commas is split into these items; neat tokens after the
last one belong to it. -/
theorem splitBody_items {first : List Token} {others : List (List Token)} (hfirst : Neat false first)
    (hothers : ∀ item ∈ others, Neat false item) {tail : List Token} (htail : Neat false tail)
    (after : List Token) :
    ∃ body, splitBody [] (first ++ (others.flatMap (.char ',' :: ·) ++ (tail ++ .char ')' :: after))) =
        some body ∧
      List.Forall₂ (fun item found ↦ found = item ∨ found = item ++ tail) (first :: others)
        body.items ∧
      body.after = after := by
  have hnone : false = true → ([] : List Char) ≠ [] := nofun
  induction others generalizing first with
  | nil =>
    refine ⟨⟨first ++ tail, [], after⟩, ?_, .cons (.inr rfl) .nil, rfl⟩
    rw [List.flatMap_nil, List.nil_append, splitBody_append hfirst hnone,
      splitBody_append htail hnone]
    simp [splitBody, closing?]
  | cons second others ih =>
    rw [List.forall_mem_cons] at hothers
    obtain ⟨body, hbody, hitems, hafter⟩ := ih hothers.1 hothers.2
    refine ⟨⟨first, body.items, body.after⟩, ?_, .cons (.inl rfl) hitems, hafter⟩
    rw [splitBody_append hfirst hnone]
    simp [splitBody, closing?, hbody, Body.cut]

/-- The body in the first parentheses begins after tokens among which there is no parenthesis. -/
theorem body?_append {heading : List Token} (hheading : ∀ token ∈ heading, token ≠ .char '(')
    (rest : List Token) : body? (heading ++ .char '(' :: rest) = splitBody [] rest := by
  have hdrop : (heading ++ .char '(' :: rest).dropWhile (· ≠ .char '(') = .char '(' :: rest := by
    rw [List.dropWhile_append_of_pos fun token htoken ↦ decide_eq_true (hheading token htoken),
      List.dropWhile_cons_of_neg]
    simp
  rw [body?, hdrop]

/-! ## Names -/

/-- The token of an identifier. -/
def nameToken (name : String) : Token :=
  .quoted '\x22' name.toList

/-- The tokens of several names that are separated by commas. -/
def nameTokens (first : String) (others : List String) : List Token :=
  nameToken first :: (others.map fun name ↦ [.char ' ', nameToken name]).flatMap (.char ',' :: ·)

/-- The tokens of the clause of a primary key. -/
def keyTokens (first : String) (others : List String) : List Token :=
  unquoted "PRIMARY KEY " ++ .char '(' :: (nameTokens first others ++ [.char ')'])

/-- The identifiers among tokens. -/
def quotedNames (tokens : List Token) : List String :=
  tokens.filterMap fun token ↦
    match token with
    | .quoted '\x22' name => some (String.ofList name)
    | _ => none

section Names

variable {blanks : List Token} {name first : String} {others : List String}

@[simp]
theorem quotedNames_nil : quotedNames [] = [] :=
  rfl

@[simp]
theorem quotedNames_cons_nameToken (name : String) (tokens : List Token) :
    quotedNames (nameToken name :: tokens) = name :: quotedNames tokens := by
  simp [quotedNames, nameToken]

@[simp]
theorem quotedNames_cons_char (c : Char) (tokens : List Token) :
    quotedNames (.char c :: tokens) = quotedNames tokens := by
  simp [quotedNames]

@[simp]
theorem quotedNames_append (tokens others : List Token) :
    quotedNames (tokens ++ others) = quotedNames tokens ++ quotedNames others :=
  List.filterMap_append

@[simp]
theorem quotedNames_unquoted (text : String) : quotedNames (unquoted text) = [] := by
  rw [quotedNames, unquoted, List.filterMap_map]
  exact List.filterMap_eq_nil_iff.mpr fun _ _ ↦ rfl

theorem neat_nameToken (name : String) {commas : Bool} : Neat commas [nameToken name] :=
  .quoted rfl nofun .nil

theorem neat_keyTokens : Neat false (keyTokens first others) := by
  have hnames : Neat true (nameTokens first others) := by
    refine (neat_nameToken first).joined fun part hpart ↦ ?_
    obtain ⟨name, -, rfl⟩ := List.mem_map.mp hpart
    exact .comma (.plain rfl (neat_nameToken name))
  have hbrackets : Neat false (.char '(' :: (nameTokens first others ++ [.char ')'])) :=
    .bracket rfl hnames .nil
  exact hbrackets.plain_append (by decide)

theorem dropWhile_blanks (hblanks : ∀ token ∈ blanks, token.isBlank = true) {token : Token}
    (htoken : token.isBlank = false) (rest : List Token) :
    (blanks ++ token :: rest).dropWhile Token.isBlank = token :: rest := by
  rw [List.dropWhile_append_of_pos hblanks, List.dropWhile_cons_of_neg]
  simp [htoken]

theorem leadingName?_nameToken (hblanks : ∀ token ∈ blanks, token.isBlank = true)
    (rest : List Token) : leadingName? (blanks ++ nameToken name :: rest) = some name := by
  rw [leadingName?, dropWhile_blanks hblanks rfl]
  exact congrArg some String.ofList_toList

theorem soleName?_nameToken (hblanks : ∀ token ∈ blanks, token.isBlank = true) :
    soleName? (blanks ++ [nameToken name]) = some name := by
  have hkept : (blanks ++ [nameToken name]).filter (!·.isBlank) = [nameToken name] := by
    rw [List.filter_append, List.filter_eq_nil_iff.mpr]
    · rfl
    · intro token htoken
      simp [hblanks token htoken]
  rw [soleName?, hkept]
  exact congrArg some String.ofList_toList

/-- The names in the clause of a primary key are found again by splitting its parentheses. -/
theorem splitBody_nameTokens (first : String) (others : List String) (after : List Token) :
    ∃ body, splitBody [] (nameTokens first others ++ .char ')' :: after) = some body ∧
      body.items.mapM soleName? = some (first :: others) := by
  have hparts : ∀ part ∈ others.map fun name ↦ [.char ' ', nameToken name], Neat false part := by
    intro part hpart
    obtain ⟨name, -, rfl⟩ := List.mem_map.mp hpart
    exact .plain rfl (neat_nameToken name)
  obtain ⟨body, hsplit, hitems, -⟩ :=
    splitBody_items (neat_nameToken first) hparts .nil after
  refine ⟨body, ?_, ?_⟩
  · rw [← hsplit, nameTokens]
    simp
  · have hitems : [nameToken first] :: others.map (fun name ↦ [.char ' ', nameToken name]) =
        body.items := by
      rw [← List.forall₂_eq_eq_eq]
      refine hitems.imp fun item found hfound ↦ ?_
      simpa [eq_comm] using hfound
    have hblank : ∀ token ∈ [Token.char ' '], token.isBlank = true := by decide
    have hnone : ∀ token ∈ ([] : List Token), token.isBlank = true := nofun
    rw [← hitems, mapM_eq_some_iff, List.forall₂_cons, List.forall₂_map_left_iff, List.forall₂_same]
    exact ⟨soleName?_nameToken hnone, fun name _ ↦ soleName?_nameToken hblank⟩

/-- The clause of a primary key is read as the names in it. -/
theorem keyNames?_keyTokens (hblanks : ∀ token ∈ blanks, token.isBlank = true)
    (after : List Token) :
    keyNames? (blanks ++ (keyTokens first others ++ after)) = some (first :: others) := by
  have hheading : ∀ token ∈ blanks ++ unquoted "PRIMARY KEY ", token ≠ .char '(' := by
    intro token htoken
    rcases List.mem_append.mp htoken with hblank | hunquoted
    · rintro rfl
      exact absurd (hblanks _ hblank) (by decide)
    · exact ne_of_mem_unquoted (by decide) hunquoted
  have hbody : body? (blanks ++ (keyTokens first others ++ after)) =
      splitBody [] (nameTokens first others ++ .char ')' :: after) := by
    rw [← body?_append hheading]
    simp [keyTokens]
  have hword : (unquoted "PRIMARY KEY").isPrefixOf
      ((blanks ++ (keyTokens first others ++ after)).dropWhile Token.isBlank) = true := by
    have hshape : blanks ++ (keyTokens first others ++ after) =
        blanks ++ .char 'P' :: (unquoted "RIMARY KEY " ++
          .char '(' :: (nameTokens first others ++ .char ')' :: after)) := by
      simp [keyTokens, unquoted]
    rw [hshape, dropWhile_blanks hblanks (by decide)]
    rfl
  obtain ⟨body, hsplit, hnames⟩ := splitBody_nameTokens first others after
  rw [keyNames?, if_pos hword, hbody, hsplit]
  exact hnames

end Names

end EntityCompiler.Sql
