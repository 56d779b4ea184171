/-!
# SQL quotes

Identifiers and texts are enclosed in quotes, and a quote inside is written twice.  A quote may have
any number of characters; the empty quote leaves a text as it is.
-/

namespace EntityCompiler.Sql

/-- The characters with every quote written twice.  Quotes are found from left to right and do not
overlap: the first `within` characters belong to a quote that has been found before. -/
def doubledFrom (quote : List Char) : (within : Nat) → List Char → List Char
  | _, [] => []
  | within + 1, c :: rest => c :: doubledFrom quote within rest
  | 0, c :: rest =>
    if quote.isPrefixOf (c :: rest) then quote ++ c :: doubledFrom quote (quote.length - 1) rest
    else c :: doubledFrom quote 0 rest

/-- The characters with every quote written twice. -/
def doubled (quote text : List Char) : List Char :=
  doubledFrom quote 0 text

/-- A quote of one character is written twice wherever it stands. -/
theorem doubled_singleton (quote : Char) (text : List Char) :
    doubled [quote] text = text.flatMap fun c ↦ if c = quote then [quote, quote] else [c] := by
  unfold doubled
  induction text with
  | nil => rfl
  | cons c rest ih =>
    by_cases h : c = quote
    · simp [doubledFrom, h, ih]
    · simp [doubledFrom, h, ih, Ne.symm h]

section Doubled

variable {quote c : Char} {text : List Char}

theorem doubled_nil : doubled [quote] [] = [] :=
  rfl

theorem doubled_cons_self :
    doubled [quote] (quote :: text) = quote :: quote :: doubled [quote] text := by
  simp [doubled_singleton]

theorem doubled_cons_of_ne (h : c ≠ quote) :
    doubled [quote] (c :: text) = c :: doubled [quote] text := by
  simp [doubled_singleton, h]

theorem doubled_of_notMem (h : quote ∉ text) : doubled [quote] text = text := by
  induction text with
  | nil => rfl
  | cons c rest ih =>
    rw [List.mem_cons, not_or] at h
    rw [doubled_cons_of_ne (Ne.symm h.1), ih h.2]

end Doubled

/-- The text between quotes. -/
def enclosed (quote text : String) : String :=
  quote ++ String.ofList (doubled quote.toList text.toList) ++ quote

/-- The literal of a text. -/
def quoteText (text : String) : String :=
  enclosed "\x27" text

end EntityCompiler.Sql
