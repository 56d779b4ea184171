import EntityCompiler.Proofs.Json.Order

/-!
# JSON values that can be written

A JSON value can be written if all its parts can, in whatever order they stand.
-/

namespace EntityCompiler.Json

@[simp]
theorem isWritable_null : Json.null.isWritable = true := rfl

@[simp]
theorem isWritable_bool (b : Bool) : (Json.bool b).isWritable = true := rfl

@[simp]
theorem isWritable_text (s : String) : (Json.text s).isWritable = true := rfl

@[simp]
theorem isWritable_array_iff {items : List Json} :
    (Json.array items).isWritable = true ↔ ∀ item ∈ items, item.isWritable = true := by
  rw [isWritable]
  induction items with
  | nil => simp [itemsWritable]
  | cons item items ih => rw [itemsWritable, Bool.and_eq_true, ih, List.forall_mem_cons]

@[simp]
theorem isWritable_object_iff {members : List (String × Json)} :
    (Json.object members).isWritable = true ↔ ∀ member ∈ members, member.2.isWritable = true := by
  rw [isWritable]
  induction members with
  | nil => simp [membersWritable]
  | cons member members ih => rw [membersWritable, Bool.and_eq_true, ih, List.forall_mem_cons]

@[simp]
theorem isWritable_ofText? (s : Option String) : (ofText? s).isWritable = true := by
  cases s <;> rfl

@[simp]
theorem isWritable_ofTexts (texts : List String) : (ofTexts texts).isWritable = true := by
  simp [ofTexts]

/-- Whether a value can be written does not depend on the order of members. -/
theorem isWritable_iff_of_reordered {a b : Json} (h : a.Reordered b) :
    a.isWritable = true ↔ b.isWritable = true := by
  induction h with
  | refl value => rfl
  | symm _ ih => exact ih.symm
  | trans _ _ ihab ihbc => exact ihab.trans ihbc
  | permutation hperm => simp only [isWritable_object_iff, hperm.mem_iff]
  | item before after _ ih =>
    simp only [isWritable_array_iff, List.forall_mem_append, List.forall_mem_cons, ih]
  | member before key after _ ih =>
    simp only [isWritable_object_iff, List.forall_mem_append, List.forall_mem_cons, ih]

end EntityCompiler.Json
