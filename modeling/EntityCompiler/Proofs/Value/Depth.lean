import EntityCompiler.Proofs.Value.Keyed
import EntityCompiler.Value.Depth

/-!
# Levels of values

The number of levels of a value does not depend on the order of entries, and that of a JSON value is told
by those of its parts.
-/

namespace EntityCompiler.Value

/-! ## Parts -/

theorem itemsDepth_replace (before after : List Value) {v w : Value} (h : v.depth = w.depth) :
    itemsDepth (before ++ v :: after) = itemsDepth (before ++ w :: after) := by
  induction before with
  | nil => rw [List.nil_append, List.nil_append, itemsDepth, itemsDepth, h]
  | cons item before ih => rw [List.cons_append, List.cons_append, itemsDepth, itemsDepth, ih]

theorem entriesDepth_replace (before : List (Value × Value)) (key : Value)
    (after : List (Value × Value)) {v w : Value} (h : v.depth = w.depth) :
    entriesDepth (before ++ (key, v) :: after) = entriesDepth (before ++ (key, w) :: after) := by
  induction before with
  | nil => rw [List.nil_append, List.nil_append, entriesDepth, entriesDepth, h]
  | cons entry before ih =>
    rw [List.cons_append, List.cons_append, entriesDepth, entriesDepth, ih]

theorem itemsDepth_le_iff {items : List Value} {n : Nat} :
    itemsDepth items ≤ n ↔ ∀ item ∈ items, item.depth ≤ n := by
  induction items with
  | nil => simp [itemsDepth]
  | cons item items ih => rw [itemsDepth, Nat.max_le, ih, List.forall_mem_cons]

theorem entriesDepth_le_iff {entries : List (Value × Value)} {n : Nat} :
    entriesDepth entries ≤ n ↔ ∀ entry ∈ entries, entry.2.depth ≤ n := by
  induction entries with
  | nil => simp [entriesDepth]
  | cons entry entries ih => rw [entriesDepth, Nat.max_le, ih, List.forall_mem_cons]

theorem entriesDepth_eq_of_perm {entries others : List (Value × Value)} (h : entries.Perm others) :
    entriesDepth entries = entriesDepth others := by
  refine eq_of_forall_ge_iff fun n ↦ ?_
  rw [entriesDepth_le_iff, entriesDepth_le_iff]
  simp only [h.mem_iff]

/-- Values that differ in the order of entries have as many levels. -/
theorem depth_eq_of_reordered {v w : Value} (h : v.Reordered w) : v.depth = w.depth := by
  induction h with
  | refl v => rfl
  | symm _ ih => exact ih.symm
  | trans _ _ ihuv ihvw => exact ihuv.trans ihvw
  | permutation hperm => rw [depth, depth, entriesDepth_eq_of_perm hperm]
  | item before after _ ih => rw [depth, depth, itemsDepth_replace before after ih]
  | entry before key after _ ih => rw [depth, depth, entriesDepth_replace before key after ih]

/-! ## JSON values -/

theorem depth_array_le_iff {items : List Json} {n : Nat} :
    (Json.array items).depth ≤ n + 1 ↔ ∀ item ∈ items, item.depth ≤ n := by
  rw [Json.depth, Json.toValue, depth, Nat.succ_le_succ_iff, itemsDepth_le_iff, jsonItems_eq_map,
    List.forall_mem_map]
  rfl

theorem depth_object_le_iff {members : List (String × Json)} {n : Nat} :
    (Json.object members).depth ≤ n + 1 ↔ ∀ member ∈ members, member.2.depth ≤ n := by
  rw [Json.depth, Json.toValue, depth, Nat.succ_le_succ_iff, entriesDepth_le_iff,
    jsonEntries_eq_map, List.forall_mem_map]
  rfl

end EntityCompiler.Value
