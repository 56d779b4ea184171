import EntityCompiler.Entity.Equality
import EntityCompiler.Proofs.Value.Plain

/-!
# Equality of values

Equality does not see the order of entries, and a value equals itself unless there is an undefined
number in it.
-/

namespace EntityCompiler

namespace Value

/-! ## Undefined numbers -/

mutual

/-- Whether no number in a value is undefined. -/
def NanFree : Value → Prop
  | .float x => x ≠ .nan
  | .list items => ItemsNanFree items
  | .tuple items => ItemsNanFree items
  | .collection _ items => ItemsNanFree items
  | .dict entries => EntriesNanFree entries
  | _ => True

def ItemsNanFree : List Value → Prop
  | [] => True
  | item :: rest => NanFree item ∧ ItemsNanFree rest

def EntriesNanFree : List (Value × Value) → Prop
  | [] => True
  | (key, value) :: rest => NanFree key ∧ NanFree value ∧ EntriesNanFree rest

end

theorem entriesNanFree_iff {entries : List (Value × Value)} :
    EntriesNanFree entries ↔ ∀ entry ∈ entries, NanFree entry.1 ∧ NanFree entry.2 := by
  induction entries with
  | nil => simp [EntriesNanFree]
  | cons entry entries ih => rw [EntriesNanFree, ih, List.forall_mem_cons, and_assoc]

mutual

/-- A value equals itself. -/
theorem alike_refl : (v : Value) → v.NanFree → v.alike v = true
  | .null, _ => rfl
  | .bool b, _ => by simp [alike, scalarAlike, integral?]
  | .int n, _ => by simp [alike, scalarAlike, integral?]
  | .float (.finite x), _ => by
    simp [alike, scalarAlike, Binary64.sameValue, Finite64.sameValue]
  | .float (.infinity _), _ => by simp [alike, scalarAlike, Binary64.sameValue]
  | .float .nan, h => absurd rfl h
  | .text s, _ => by simp [alike, scalarAlike]
  | .bytes data, _ => by simp [alike, scalarAlike]
  | .moment t, _ => by simp [alike, scalarAlike, Moment.sameInstant]
  | .columnType t, _ => by simp [alike, scalarAlike]
  | .list items, h => by
    rw [alike]
    exact itemsAlike_refl items h
  | .tuple items, h => by
    rw [alike]
    exact itemsAlike_refl items h
  | .collection kind items, h => by
    rw [alike, kind.agrees_self, membersAlike_of_subset items h fun _ ↦ id, itemsAlike_refl items h]
    simp
  | .dict entries, h => by
    rw [alike, Bool.and_eq_true]
    exact ⟨decide_eq_true rfl, entriesAlike_of_subset entries h fun _ ↦ id⟩

theorem itemsAlike_refl : (items : List Value) → ItemsNanFree items →
    itemsAlike items items = true
  | [], _ => rfl
  | item :: items, h => by
    rw [itemsAlike, alike_refl item h.1, itemsAlike_refl items h.2, Bool.and_self]

theorem membersAlike_of_subset {others : List Value} :
    (items : List Value) → ItemsNanFree items → items ⊆ others → membersAlike items others = true
  | [], _, _ => rfl
  | item :: items, h, hsubset => by
    rw [List.cons_subset] at hsubset
    rw [membersAlike, membersAlike_of_subset items h.2 hsubset.2, Bool.and_true]
    exact List.any_eq_true.mpr ⟨item, hsubset.1, alike_refl item h.1⟩

theorem entriesAlike_of_subset {others : List (Value × Value)} :
    (entries : List (Value × Value)) → EntriesNanFree entries → entries ⊆ others →
      entriesAlike entries others = true
  | [], _, _ => rfl
  | (key, value) :: entries, h, hsubset => by
    rw [List.cons_subset] at hsubset
    rw [entriesAlike, entriesAlike_of_subset entries h.2.2 hsubset.2, Bool.and_true]
    refine List.any_eq_true.mpr ⟨_, hsubset.1, ?_⟩
    rw [alike_refl key h.1, alike_refl value h.2.1, Bool.and_self]

end

mutual

/-- There are no undefined numbers in JSON. -/
theorem nanFree_toValue : (value : Json) → value.toValue.NanFree
  | .null => trivial
  | .bool _ => trivial
  | .int _ => trivial
  | .float _ => by simp [Json.toValue, NanFree]
  | .text _ => trivial
  | .array items => nanFree_jsonItems items
  | .object members => nanFree_jsonEntries members

theorem nanFree_jsonItems : (items : List Json) → ItemsNanFree (jsonItems items)
  | [] => trivial
  | item :: items => ⟨nanFree_toValue item, nanFree_jsonItems items⟩

theorem nanFree_jsonEntries : (members : List (String × Json)) →
    EntriesNanFree (jsonEntries members)
  | [] => trivial
  | (_, value) :: members => ⟨trivial, nanFree_toValue value, nanFree_jsonEntries members⟩

end

mutual

theorem nanFree_untupled : (v : Value) → v.NanFree → v.untupled.NanFree
  | .null, _ => trivial
  | .bool _, _ => trivial
  | .int _, _ => trivial
  | .float _, h => h
  | .text _, _ => trivial
  | .bytes _, _ => trivial
  | .moment _, _ => trivial
  | .collection _ _, h => h
  | .columnType _, _ => trivial
  | .list items, h => nanFree_untupledItems items h
  | .tuple items, h => nanFree_untupledItems items h
  | .dict entries, h => nanFree_untupledEntries entries h

theorem nanFree_untupledItems : (items : List Value) → ItemsNanFree items →
    ItemsNanFree (untupledItems items)
  | [], _ => trivial
  | item :: items, h => ⟨nanFree_untupled item h.1, nanFree_untupledItems items h.2⟩

theorem nanFree_untupledEntries : (entries : List (Value × Value)) → EntriesNanFree entries →
    EntriesNanFree (untupledEntries entries)
  | [], _ => trivial
  | (_, value) :: entries, h =>
    ⟨h.1, nanFree_untupled value h.2.1, nanFree_untupledEntries entries h.2.2⟩

end

theorem nanFree_dict {entries : List (Value × Value)} (h : NanFree (.dict entries)) :
    ∀ entry ∈ entries, NanFree entry.2 :=
  fun entry hentry ↦ (entriesNanFree_iff.mp h entry hentry).2

/-! ## The order of entries -/

theorem scalarAlike_list (v : Value) (items : List Value) : scalarAlike v (.list items) = false := by
  cases v with
  | columnType t => cases t <;> simp [scalarAlike, integral?]
  | _ => simp [scalarAlike, integral?]

theorem scalarAlike_dict (v : Value) (entries : List (Value × Value)) :
    scalarAlike v (.dict entries) = false := by
  cases v with
  | columnType t => cases t <;> simp [scalarAlike, integral?]
  | _ => simp [scalarAlike, integral?]

theorem itemsAlike_replace {v w : Value} (h : ∀ u : Value, u.alike v = u.alike w)
    (items before after : List Value) :
    itemsAlike items (before ++ v :: after) = itemsAlike items (before ++ w :: after) := by
  induction before generalizing items with
  | nil =>
    cases items with
    | nil => rfl
    | cons item items => rw [List.nil_append, List.nil_append, itemsAlike, itemsAlike, h]
  | cons other before ih =>
    cases items with
    | nil => rfl
    | cons item items => rw [List.cons_append, List.cons_append, itemsAlike, itemsAlike, ih]

/-- Entries are looked for among others whatever the order of these. -/
theorem entriesAlike_congr {others others' : List (Value × Value)}
    (h : ∀ key value : Value, (others.any fun other ↦ key.alike other.1 && value.alike other.2) =
      others'.any fun other ↦ key.alike other.1 && value.alike other.2)
    (entries : List (Value × Value)) :
    entriesAlike entries others = entriesAlike entries others' := by
  induction entries with
  | nil => rfl
  | cons entry entries ih => rw [entriesAlike, entriesAlike, ih, h]

/-- Values that differ in the order of entries equal the same values. -/
theorem alike_eq_of_reordered {v w : Value} (h : Reordered v w) (u : Value) :
    u.alike v = u.alike w := by
  induction h generalizing u with
  | refl v => rfl
  | symm _ ih => exact (ih u).symm
  | trans _ _ ihuv ihvw => exact (ihuv u).trans (ihvw u)
  | permutation hperm =>
    cases u with
    | dict entries =>
      rw [alike, alike, hperm.length_eq]
      congr 1
      exact entriesAlike_congr (fun key value ↦ hperm.any_eq) entries
    | list _ => rfl
    | tuple _ => rfl
    | collection _ _ => rfl
    | _ => simp only [alike, scalarAlike_dict]
  | item before after _ ih =>
    cases u with
    | list items => rw [alike, alike, itemsAlike_replace ih]
    | tuple _ => rfl
    | collection _ _ => rfl
    | dict _ => rfl
    | _ => simp only [alike, scalarAlike_list]
  | entry before key after _ ih =>
    cases u with
    | dict entries =>
      rw [alike, alike, List.length_append, List.length_append, List.length_cons, List.length_cons]
      congr 1
      exact entriesAlike_congr (fun label value ↦ by simp [ih]) entries
    | list _ => rfl
    | tuple _ => rfl
    | collection _ _ => rfl
    | _ => simp only [alike, scalarAlike_dict]

theorem alike_of_reordered {v w : Value} (h : Reordered v w) (hv : v.NanFree) :
    v.alike w = true := by
  rw [← alike_eq_of_reordered h, alike_refl v hv]

end Value

end EntityCompiler
