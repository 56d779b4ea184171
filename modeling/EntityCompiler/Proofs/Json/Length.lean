import EntityCompiler.Proofs.Json.Order
import EntityCompiler.Proofs.Json.Text
import EntityCompiler.Proofs.Outcome

/-!
# Texts of reordered values

Values that differ in the order of members only have texts with the same characters in another order,
so that these texts have the same length.
-/

namespace EntityCompiler.Json

/-! ## Joined parts -/

variable {separator : List Char} {parts others : List (List Char)}

theorem intercalate_cons (separator part : List Char) (parts : List (List Char)) :
    separator.intercalate (part :: parts) = part ++ parts.flatMap (separator ++ ·) := by
  induction parts generalizing part with
  | nil => rw [List.intercalate_singleton, List.flatMap_nil, List.append_nil]
  | cons next parts ih =>
    simp only [List.intercalate_cons_cons, ih, List.flatMap_cons, List.append_assoc]

theorem perm_intercalate_of_forall₂ (h : List.Forall₂ List.Perm parts others) :
    (separator.intercalate parts).Perm (separator.intercalate others) := by
  cases h with
  | nil => exact .refl _
  | @cons part other parts others hpart hparts =>
    rw [intercalate_cons, intercalate_cons]
    refine hpart.append ?_
    induction hparts with
    | nil => exact .refl _
    | cons hnext _ ih =>
      rw [List.flatMap_cons, List.flatMap_cons]
      exact (hnext.append_left separator).append ih

theorem perm_intercalate_of_perm (h : parts.Perm others) :
    (separator.intercalate parts).Perm (separator.intercalate others) := by
  have hswap (x y : List Char) (rest : List (List Char)) :
      (separator.intercalate (x :: y :: rest)).Perm (separator.intercalate (y :: x :: rest)) := by
    have hfirst : (x ++ (separator ++ y)).Perm (y ++ (separator ++ x)) := by
      have hmiddle : (separator ++ y ++ x).Perm (y ++ separator ++ x) :=
        List.perm_append_comm.append_right x
      exact List.perm_append_comm.trans (hmiddle.trans (.of_eq (List.append_assoc _ _ _)))
    have hall := hfirst.append_right (rest.flatMap (separator ++ ·))
    simpa only [intercalate_cons, List.flatMap_cons, List.append_assoc] using hall
  induction h with
  | nil => exact .refl _
  | swap x y rest => exact hswap y x rest
  | trans _ _ ih ih' => exact ih.trans ih'
  | cons x h _ =>
    rw [intercalate_cons, intercalate_cons]
    exact (h.flatMap_right _).append_left x

/-! ## Values -/

variable {charset : Charset}

theorem itemChars_eq_map (items : List Json) : itemChars charset items = items.map (chars charset) := by
  induction items with
  | nil => rfl
  | cons item items ih => rw [itemChars, ih, List.map_cons]

/-- The characters of one member. -/
def charsOfMember (charset : Charset) (member : String × Json) : List Char :=
  quoteText charset member.1 ++ ':' :: chars charset member.2

theorem memberChars_eq_map (members : List (String × Json)) :
    memberChars charset members = members.map (charsOfMember charset) := by
  induction members with
  | nil => rfl
  | cons member members ih => rw [memberChars, ih, List.map_cons, charsOfMember]

theorem chars_array (items : List Json) : chars charset (.array items) =
    '[' :: [','].intercalate (items.map (chars charset)) ++ [']'] := by
  rw [chars, itemChars_eq_map]

theorem chars_object (members : List (String × Json)) : chars charset (.object members) =
    '\x7b' :: [','].intercalate (members.map (charsOfMember charset)) ++ ['\x7d'] := by
  rw [chars, memberChars_eq_map]

/-- The order of members is all that the texts of reordered values differ in. -/
theorem perm_chars_of_reordered {a b : Json} (h : Reordered a b) :
    (chars charset a).Perm (chars charset b) := by
  induction h with
  | refl value => exact .refl _
  | symm _ ih => exact ih.symm
  | trans _ _ ih ih' => exact ih.trans ih'
  | permutation h =>
    rw [chars_object, chars_object]
    exact ((perm_intercalate_of_perm (h.map _)).append_right _).cons _
  | @item a b before after _ ih =>
    rw [chars_array, chars_array, List.map_append, List.map_append, List.map_cons, List.map_cons]
    have hparts := forall₂_replace List.Perm.refl (before.map (chars charset))
      (after.map (chars charset)) ih
    exact ((perm_intercalate_of_forall₂ hparts).append_right _).cons _
  | @member a b before key after _ ih =>
    rw [chars_object, chars_object, List.map_append, List.map_append, List.map_cons, List.map_cons]
    have hmember : (charsOfMember charset (key, a)).Perm (charsOfMember charset (key, b)) :=
      (ih.cons _).append_left _
    have hparts := forall₂_replace List.Perm.refl (before.map (charsOfMember charset))
      (after.map (charsOfMember charset)) hmember
    exact ((perm_intercalate_of_forall₂ hparts).append_right _).cons _

end EntityCompiler.Json
