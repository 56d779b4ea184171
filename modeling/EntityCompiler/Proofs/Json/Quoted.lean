import EntityCompiler.Json.Text
import EntityCompiler.Proofs.Number.Digits

/-!
# Quoted texts read back

Every escape of a quoted JSON text is read back to its character, whichever characters are escaped and
also where a character is written by two UTF-16 units.  A quoted text is therefore read back whatever
follows it, and two texts whose quoted forms start the same input are equal.
-/

namespace EntityCompiler.Json

/-! ## Single characters -/

/-- Characters are the Unicode scalar values: none of them is a surrogate unit. -/
theorem scalar_of_char (c : Char) : c.toNat < 0xD800 ∨ 0xDFFF < c.toNat ∧ c.toNat < 0x110000 := by
  have hvalid := c.valid
  simp only [UInt32.isValidChar, Nat.isValidChar] at hvalid
  exact hvalid

theorem readUnits_single {unit : Nat} (hunit : unit < 0x10000)
    (hsurrogate : ¬(0xD800 ≤ unit ∧ unit < 0xDC00)) (rest : List Char) :
    readUnits (Numeral.hexDigits 4 unit ++ rest) = some (Char.ofNat unit, rest) := by
  rw [readUnits, Numeral.readUnit_hexDigits hunit]
  simp only [Option.bind_eq_bind, Option.bind_some, if_neg hsurrogate, Option.pure_def]

theorem readUnits_pair {high low : Nat} (hhigh : 0xD800 ≤ high ∧ high < 0xDC00)
    (hlow : low < 0x10000) (rest : List Char) :
    readUnits (Numeral.hexDigits 4 high ++ (unitEscape low ++ rest)) =
      some (Char.ofNat (0x10000 + (high - 0xD800) * 0x400 + (low - 0xDC00)), rest) := by
  have hunit : high < 0x10000 := by omega
  rw [readUnits, Numeral.readUnit_hexDigits hunit]
  simp only [Option.bind_eq_bind, Option.bind_some, if_pos hhigh, unitEscape, List.cons_append,
    Numeral.readUnit_hexDigits hlow, Option.pure_def]

/-- A character written by its UTF-16 units is read back. -/
theorem readEscape_utf16Escape (c : Char) :
    ∃ tail, utf16Escape c = '\\' :: tail ∧ ∀ rest, readEscape (tail ++ rest) = some (c, rest) := by
  have hscalar := scalar_of_char c
  unfold utf16Escape
  split_ifs with hsmall
  · refine ⟨'u' :: Numeral.hexDigits 4 c.toNat, rfl, fun rest ↦ ?_⟩
    rw [List.cons_append, readEscape, readUnits_single hsmall (by omega), Char.ofNat_toNat]
  · refine ⟨'u' :: Numeral.hexDigits 4 (0xD800 + (c.toNat - 0x10000) / 0x400) ++
      unitEscape (0xDC00 + (c.toNat - 0x10000) % 0x400), rfl, fun rest ↦ ?_⟩
    rw [List.append_assoc, List.cons_append, readEscape,
      readUnits_pair (by omega) (by omega) rest]
    have hvalue : 0x10000 + (0xD800 + (c.toNat - 0x10000) / 0x400 - 0xD800) * 0x400 +
        (0xDC00 + (c.toNat - 0x10000) % 0x400 - 0xDC00) = c.toNat := by omega
    rw [hvalue, Char.ofNat_toNat]

/-- A character of a quoted text stands for itself, or it is an escape that is read back. -/
theorem escapeChar_cases (charset : Charset) (c : Char) :
    (escapeChar charset c = [c] ∧ c ≠ '\x22' ∧ c ≠ '\\') ∨
      ∃ tail, escapeChar charset c = '\\' :: tail ∧
        ∀ rest, readEscape (tail ++ rest) = some (c, rest) := by
  unfold escapeChar
  split_ifs with hquote hnewline hreturn htab hback hfeed hcode
  · right
    refine ⟨[c], rfl, fun rest ↦ ?_⟩
    rcases hquote with rfl | rfl <;> rfl
  · subst hnewline
    exact .inr ⟨['n'], rfl, fun _ ↦ rfl⟩
  · subst hreturn
    exact .inr ⟨['r'], rfl, fun _ ↦ rfl⟩
  · subst htab
    exact .inr ⟨['t'], rfl, fun _ ↦ rfl⟩
  · obtain rfl : c = Char.ofNat 8 := by rw [← hback, Char.ofNat_toNat]
    exact .inr ⟨['b'], rfl, fun _ ↦ rfl⟩
  · obtain rfl : c = Char.ofNat 12 := by
      have hchar := congrArg Char.ofNat hfeed
      rwa [Char.ofNat_toNat] at hchar
    exact .inr ⟨['f'], rfl, fun _ ↦ rfl⟩
  · exact .inr (readEscape_utf16Escape c)
  · exact .inl ⟨rfl, fun h ↦ hquote (.inl h), fun h ↦ hquote (.inr h)⟩

/-! ## Whole texts -/

theorem readQuoted_escapeChar (charset : Charset) (c : Char) (fuel : Nat)
    (done rest : List Char) :
    readQuoted (fuel + 1) done (escapeChar charset c ++ rest) =
      readQuoted fuel (c :: done) rest := by
  rcases escapeChar_cases charset c with ⟨hself, hquote, hback⟩ | ⟨tail, hescape, hread⟩
  · rw [hself, List.singleton_append, readQuoted]
    · exact fun h ↦ hquote h
    · exact fun h ↦ hback h
  · rw [hescape, List.cons_append, readQuoted, hread]
    rfl

/-- The reading of escaped characters up to the closing quote, with enough steps. -/
theorem readQuoted_flatMap (charset : Charset) (cs : List Char) (fuel : Nat)
    (hfuel : cs.length < fuel) (done rest : List Char) :
    readQuoted fuel done (cs.flatMap (escapeChar charset) ++ '\x22' :: rest) =
      some (String.ofList (done.reverse ++ cs), rest) := by
  induction cs generalizing fuel done with
  | nil =>
    obtain ⟨fuel, rfl⟩ := Nat.exists_eq_succ_of_ne_zero (Nat.ne_of_gt hfuel)
    simp [readQuoted]
  | cons c cs ih =>
    obtain ⟨fuel, rfl⟩ := Nat.exists_eq_succ_of_ne_zero (Nat.ne_of_gt (Nat.zero_lt_of_lt hfuel))
    rw [List.flatMap_cons, List.append_assoc, readQuoted_escapeChar,
      ih fuel (Nat.lt_of_succ_lt_succ hfuel)]
    simp

theorem length_le_length_flatMap_escapeChar (charset : Charset) (cs : List Char) :
    cs.length ≤ (cs.flatMap (escapeChar charset)).length := by
  induction cs with
  | nil => exact le_rfl
  | cons c cs ih =>
    have hpos : 0 < (escapeChar charset c).length := by
      rcases escapeChar_cases charset c with ⟨hself, -⟩ | ⟨tail, hescape, -⟩
      · simp [hself]
      · simp [hescape]
    rw [List.flatMap_cons, List.length_append, List.length_cons]
    omega

/-- A quoted text is read back after its opening quote, whatever follows it. -/
theorem readText_quoteText (charset : Charset) (s : String) (rest : List Char) :
    readText ((quoteText charset s ++ rest).tail) = some (s, rest) := by
  have htail : (quoteText charset s ++ rest).tail =
      s.toList.flatMap (escapeChar charset) ++ '\x22' :: rest := by
    simp [quoteText]
  have hlength := length_le_length_flatMap_escapeChar charset s.toList
  rw [htail, readText, readQuoted_flatMap]
  · simp
  · rw [List.length_append]
    omega

/-- Texts whose quoted forms start the same input are equal, and so is what follows. -/
theorem quoteText_append_inj {charset : Charset} {s t : String} {rest others : List Char}
    (h : quoteText charset s ++ rest = quoteText charset t ++ others) : s = t ∧ rest = others := by
  have hread := readText_quoteText charset s rest
  rw [h, readText_quoteText, Option.some.injEq, Prod.mk.injEq] at hread
  exact ⟨hread.1.symm, hread.2.symm⟩

end EntityCompiler.Json
