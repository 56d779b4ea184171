import EntityCompiler.Entity.Build
import EntityCompiler.Proofs.Sql.Scan

/-!
# Bare words

The words that stand outside of quotes in a text.  A word is a run of letters, digits and underscores that is
as long as possible.  How often the keyword of a default occurs among the words of joined tokens is known from
the parts.
-/

namespace EntityCompiler.Sql

def isWordChar (c : Char) : Bool :=
  Naming.isLetter c || Text.isAsciiDigit c || c = '_'

/-- Whether a token is part of a bare word.  Backticks are, so that an identifier between two of them is no
keyword. -/
def Token.inWord : Token → Bool
  | char c => isWordChar c || c = '\x60'
  | quoted _ _ => false

/-- The bare words of a text.  There is an empty word between two tokens that are not part of any. -/
def words (tokens : List Token) : List (List Token) :=
  tokens.splitOnP (!·.inWord)

/-- How often the keyword of a default clause occurs. -/
def countDefault (tokens : List Token) : Nat :=
  (words tokens).count (unquoted "DEFAULT")

variable {token : Token} {tokens others : List Token}

/-- Words end at a token that is not part of one. -/
theorem countDefault_append_cons (h : token.inWord = false) (tokens others : List Token) :
    countDefault (tokens ++ token :: others) = countDefault tokens + countDefault others := by
  have hwords : words (tokens ++ token :: others) = words tokens ++ words others :=
    List.splitOnP_append_cons tokens others (by rw [h]; rfl)
  rw [countDefault, hwords, List.count_append]
  rfl

theorem countDefault_cons (h : token.inWord = false) (tokens : List Token) :
    countDefault (token :: tokens) = countDefault tokens := by
  have hnone : countDefault [] = 0 := by decide
  have hsum := countDefault_append_cons h [] tokens
  rwa [hnone, Nat.zero_add] at hsum

theorem countDefault_append {separator : List Token} (h : ∀ token ∈ separator, token.inWord = false)
    (hne : separator ≠ []) (tokens others : List Token) :
    countDefault (tokens ++ (separator ++ others)) = countDefault tokens + countDefault others := by
  obtain ⟨first, rest, rfl⟩ := List.exists_cons_of_ne_nil hne
  rw [List.forall_mem_cons] at h
  rw [List.cons_append, countDefault_append_cons h.1]
  congr 1
  have hrest := h.2
  clear h hne
  induction rest with
  | nil => rfl
  | cons next rest ih =>
    rw [List.forall_mem_cons] at hrest
    rw [List.cons_append, countDefault_cons hrest.1, ih hrest.2]

/-- Tokens before each of which there is one that is not part of a word. -/
theorem countDefault_joined {separator : Token} (h : separator.inWord = false) (first : List Token)
    (parts : List (List Token)) : countDefault (first ++ parts.flatMap (separator :: ·)) =
      countDefault first + (parts.map countDefault).sum := by
  induction parts generalizing first with
  | nil => simp
  | cons part parts ih =>
    have hrest : first ++ (part :: parts).flatMap (separator :: ·) =
        first ++ separator :: (part ++ parts.flatMap (separator :: ·)) := by
      rw [List.flatMap_cons, List.cons_append]
    rw [hrest, countDefault_append_cons h, ih, List.map_cons, List.sum_cons]

theorem mem_of_mem_words {word : List Token} (hword : word ∈ words tokens) (htoken : token ∈ word) :
    token ∈ tokens := by
  unfold words at hword
  induction tokens generalizing word with
  | nil =>
    rw [List.splitOnP_nil, List.mem_singleton] at hword
    rwa [hword] at htoken
  | cons next tokens ih =>
    rw [List.splitOnP_cons_eq_if_modifyHead] at hword
    split_ifs at hword
    · rcases List.mem_cons.mp hword with rfl | hmem
      · exact absurd htoken List.not_mem_nil
      · exact List.mem_cons_of_mem next (ih hmem htoken)
    · obtain ⟨head, rest, hsplit⟩ := List.exists_cons_of_ne_nil (List.splitOnP_ne_nil (!·.inWord) tokens)
      rw [hsplit, List.modifyHead_cons] at hword
      rw [hsplit] at ih
      rcases List.mem_cons.mp hword with rfl | hmem
      · rcases List.mem_cons.mp htoken with rfl | hhead
        · exact List.mem_cons_self
        · exact List.mem_cons_of_mem next (ih List.mem_cons_self hhead)
      · exact List.mem_cons_of_mem next (ih (List.mem_cons_of_mem head hmem) htoken)

/-- The keyword occurs only where its letters do. -/
theorem countDefault_eq_zero {c : Char} (hc : c ∈ "DEFAULT".toList) (h : .char c ∉ tokens) :
    countDefault tokens = 0 :=
  List.count_eq_zero.mpr fun hword ↦ h (mem_of_mem_words hword (List.mem_map_of_mem hc))

/-- A text that is one word is the keyword or has none. -/
theorem countDefault_word (h : ∀ token ∈ tokens, token.inWord = true)
    (hne : tokens ≠ unquoted "DEFAULT") : countDefault tokens = 0 := by
  have hone : words tokens = [tokens] := List.splitOnP_eq_singleton fun token htoken ↦ by
    rw [h token htoken]
    rfl
  rw [countDefault, hone, List.count_singleton, if_neg (by simpa using hne)]

end EntityCompiler.Sql
