import EntityCompiler.Proofs.Value.Respelled
import EntityCompiler.Value.Dump

/-!
# Values that can be written out

A value is written out if each of its parts is, on one level less.  How it is spelled does not matter for
that, and what it is written out as can be written out again.
-/

namespace EntityCompiler.Value

/-! ## Parts -/

theorem itemsFault?_eq_none_iff {levels : Nat} {items : List Value} :
    itemsFault? levels items = none ↔ ∀ item ∈ items, item.dumpFault? levels = none := by
  induction items with
  | nil => simp [itemsFault?]
  | cons item items ih => rw [itemsFault?, Option.or_eq_none_iff, ih, List.forall_mem_cons]

theorem entriesFault?_eq_none_iff {levels : Nat} {entries : List (Value × Value)} :
    entriesFault? levels entries = none ↔
      ∀ entry ∈ entries, entry.1.keyFault? = none ∧ entry.2.dumpFault? levels = none := by
  induction entries with
  | nil => simp [entriesFault?]
  | cons entry entries ih =>
    rw [entriesFault?, Option.or_eq_none_iff, Option.or_eq_none_iff, ih, List.forall_mem_cons]

/-- A list or tuple is written out if it may have a level and its items are. -/
theorem dumpFault?_list_eq_none_iff {levels : Nat} {items : List Value} :
    (Value.list items).dumpFault? levels = none ↔
      levels ≠ 0 ∧ ∀ item ∈ items, item.dumpFault? (levels - 1) = none := by
  cases levels with
  | zero => simp [dumpFault?]
  | succ levels => simp [dumpFault?, itemsFault?_eq_none_iff]

theorem dumpFault?_tuple (levels : Nat) (items : List Value) :
    (Value.tuple items).dumpFault? levels = (Value.list items).dumpFault? levels := by
  cases levels <;> rfl

theorem dumpFault?_dict_eq_none_iff {levels : Nat} {entries : List (Value × Value)} :
    (Value.dict entries).dumpFault? levels = none ↔ levels ≠ 0 ∧
      ∀ entry ∈ entries, entry.1.keyFault? = none ∧ entry.2.dumpFault? (levels - 1) = none := by
  cases levels with
  | zero => simp [dumpFault?]
  | succ levels => simp [dumpFault?, entriesFault?_eq_none_iff]

/-! ## Faults -/

/-- The errors of values that are not written out. -/
inductive IsFault : EntityError → Prop
  | tooDeep : IsFault .tooDeep
  | tooManyDigits : IsFault .tooManyDigits
  | notUtf8 (data : List UInt8) : IsFault (.notUtf8 data)
  | notAKey (found : String) : IsFault (.notAKey found)
  | notSerializable : IsFault .notSerializable

section Faults

variable {error : EntityError}

theorem isFault_of_bytesFault? {data : List UInt8} (h : bytesFault? data = some error) :
    IsFault error := by
  rw [bytesFault?] at h
  split at h
  · cases h
  · cases h
    exact .notUtf8 data

mutual

theorem isFault_of_keyFault? (v : Value) (h : v.keyFault? = some error) : IsFault error := by
  cases v with
  | int n =>
    rw [keyFault?] at h
    split at h
    · cases h
    · cases h
      exact .tooManyDigits
  | bytes data => exact isFault_of_bytesFault? h
  | tuple items => exact isFault_of_keyFaults? items h
  | collection kind items =>
    cases kind <;> cases h <;> first | exact .notSerializable | exact .notAKey _
  | list items =>
    cases h
    exact .notAKey _
  | dict entries =>
    cases h
    exact .notAKey _
  | _ => cases h

theorem isFault_of_keyFaults? (items : List Value) (h : keyFaults? items = some error) :
    IsFault error := by
  cases items with
  | nil => cases h
  | cons item items =>
    rw [keyFaults?, Option.or_eq_some_iff] at h
    rcases h with hitem | ⟨-, hrest⟩
    · exact isFault_of_keyFault? item hitem
    · exact isFault_of_keyFaults? items hrest

end

mutual

theorem isFault_of_dumpFault? {levels : Nat} (v : Value) (h : v.dumpFault? levels = some error) :
    IsFault error := by
  cases levels with
  | zero =>
    rw [dumpFault?, Option.some.injEq] at h
    exact h ▸ .tooDeep
  | succ levels =>
    cases v with
    | bytes data => exact isFault_of_bytesFault? h
    | list items => exact isFault_of_itemsFault? items h
    | tuple items => exact isFault_of_itemsFault? items h
    | collection kind items =>
      cases kind with
      | deque limit =>
        cases h
        exact .notSerializable
      | _ => exact isFault_of_itemsFault? items h
    | dict entries => exact isFault_of_entriesFault? entries h
    | columnType t =>
      rw [dumpFault?] at h
      split at h
      · cases h
      · cases h
        exact .tooDeep
    | _ => cases h

theorem isFault_of_itemsFault? {levels : Nat} (items : List Value)
    (h : itemsFault? levels items = some error) : IsFault error := by
  cases items with
  | nil => cases h
  | cons item items =>
    rw [itemsFault?, Option.or_eq_some_iff] at h
    rcases h with hitem | ⟨-, hrest⟩
    · exact isFault_of_dumpFault? item hitem
    · exact isFault_of_itemsFault? items hrest

theorem isFault_of_entriesFault? {levels : Nat} (entries : List (Value × Value))
    (h : entriesFault? levels entries = some error) : IsFault error := by
  cases entries with
  | nil => cases h
  | cons entry entries =>
    rw [entriesFault?, Option.or_eq_some_iff, Option.or_eq_some_iff] at h
    rcases h with (hkey | ⟨-, hvalue⟩) | ⟨-, hrest⟩
    · exact isFault_of_keyFault? entry.1 hkey
    · exact isFault_of_dumpFault? entry.2 hvalue
    · exact isFault_of_entriesFault? entries hrest

end

end Faults

/-! ## Spellings -/

/-- Whether a value is written out does not depend on the order of entries. -/
theorem dumpFault?_eq_none_iff_of_reordered {v w : Value} (h : v.Reordered w) (levels : Nat) :
    v.dumpFault? levels = none ↔ w.dumpFault? levels = none := by
  induction h generalizing levels with
  | refl v => rfl
  | symm _ ih => exact (ih levels).symm
  | trans _ _ ihuv ihvw => exact (ihuv levels).trans (ihvw levels)
  | permutation hperm =>
    rw [dumpFault?_dict_eq_none_iff, dumpFault?_dict_eq_none_iff]
    simp only [hperm.mem_iff]
  | item before after _ ih =>
    simp only [dumpFault?_list_eq_none_iff, List.forall_mem_append, List.forall_mem_cons, ih]
  | entry before key after _ ih =>
    simp only [dumpFault?_dict_eq_none_iff, List.forall_mem_append, List.forall_mem_cons, ih]

/-- Nor does it depend on how a literal is spelled. -/
theorem dumpFault?_eq_none_iff_of_step {v w : Value} (h : LiteralStep v w) (levels : Nat) :
    v.dumpFault? levels = none ↔ w.dumpFault? levels = none := by
  induction h generalizing levels with
  | tuple items => rw [dumpFault?_tuple]
  | permutation hperm => exact dumpFault?_eq_none_iff_of_reordered (.permutation hperm) levels
  | item before after _ ih =>
    simp only [dumpFault?_list_eq_none_iff, List.forall_mem_append, List.forall_mem_cons, ih]
  | component before after _ ih =>
    simp only [dumpFault?_tuple, dumpFault?_list_eq_none_iff, List.forall_mem_append,
      List.forall_mem_cons, ih]
  | entry before key after _ ih =>
    simp only [dumpFault?_dict_eq_none_iff, List.forall_mem_append, List.forall_mem_cons, ih]

/-! ## Plain forms -/

theorem depth_plainType_le (t : ColumnType) : (plainType t).depth ≤ t.depth + 2 := by
  induction t with
  | primitive p => exact Nat.le_succ 1
  | arrayOf element ih =>
    rw [plainType, ColumnType.depth, depth_object_le_iff, List.forall_mem_singleton]
    exact ih

mutual

/-- What is written out has no more levels than it may have. -/
theorem depth_plain_le {levels : Nat} (v : Value) (h : v.dumpFault? levels = none) :
    v.plain.depth ≤ levels := by
  cases levels with
  | zero => simp [dumpFault?] at h
  | succ levels =>
    cases v with
    | float x => cases x <;> exact Nat.le_add_left 1 levels
    | columnType t =>
      have hlevels : t.depth < levels := by
        by_contra hdeep
        simp [dumpFault?, hdeep] at h
      exact (depth_plainType_le t).trans (Nat.succ_le_succ hlevels)
    | list items => exact depth_array_le_iff.mpr (depth_plainItems_le items h)
    | tuple items => exact depth_array_le_iff.mpr (depth_plainItems_le items h)
    | collection kind items =>
      cases kind with
      | deque limit => simp [dumpFault?] at h
      | _ => exact depth_array_le_iff.mpr (depth_plainItems_le items h)
    | dict entries =>
      rw [plain, depth_object_le_iff]
      exact forall_mem_plainEntries (P := (·.depth ≤ levels))
        (fun _ hmem ↦ absurd hmem List.not_mem_nil) (depth_plainEntries_le entries h)
    | _ => exact Nat.le_add_left 1 levels

theorem depth_plainItems_le {levels : Nat} (items : List Value) (h : itemsFault? levels items = none) :
    ∀ item ∈ plainItems items, item.depth ≤ levels := by
  cases items with
  | nil => exact fun _ hmem ↦ absurd hmem List.not_mem_nil
  | cons item items =>
    rw [itemsFault?, Option.or_eq_none_iff] at h
    exact List.forall_mem_cons.mpr ⟨depth_plain_le item h.1, depth_plainItems_le items h.2⟩

theorem depth_plainEntries_le {levels : Nat} (entries : List (Value × Value))
    (h : entriesFault? levels entries = none) : ∀ entry ∈ entries, entry.2.plain.depth ≤ levels := by
  cases entries with
  | nil => exact fun _ hmem ↦ absurd hmem List.not_mem_nil
  | cons entry entries =>
    rw [entriesFault?, Option.or_eq_none_iff, Option.or_eq_none_iff] at h
    exact List.forall_mem_cons.mpr ⟨depth_plain_le entry.2 h.1.2, depth_plainEntries_le entries h.2⟩

end

mutual

/-- A JSON value is written out exactly if it has no more levels than it may have. -/
theorem dumpFault?_toValue_eq_none_iff {levels : Nat} : (value : Json) →
    (value.toValue.dumpFault? levels = none ↔ value.depth ≤ levels)
  | .null => by cases levels <;> simp [Json.toValue, dumpFault?, Json.depth, depth]
  | .bool _ => by cases levels <;> simp [Json.toValue, dumpFault?, Json.depth, depth]
  | .int _ => by cases levels <;> simp [Json.toValue, dumpFault?, Json.depth, depth]
  | .float _ => by cases levels <;> simp [Json.toValue, dumpFault?, Json.depth, depth]
  | .text _ => by cases levels <;> simp [Json.toValue, dumpFault?, Json.depth, depth]
  | .array items => by
    cases levels with
    | zero => simp [Json.toValue, dumpFault?, Json.depth, depth]
    | succ levels =>
      rw [Json.toValue, dumpFault?, itemsFault?_jsonItems_eq_none_iff items, depth_array_le_iff]
  | .object members => by
    cases levels with
    | zero => simp [Json.toValue, dumpFault?, Json.depth, depth]
    | succ levels =>
      rw [Json.toValue, dumpFault?, entriesFault?_jsonEntries_eq_none_iff members,
        depth_object_le_iff]

theorem itemsFault?_jsonItems_eq_none_iff {levels : Nat} : (items : List Json) →
    (itemsFault? levels (jsonItems items) = none ↔ ∀ item ∈ items, item.depth ≤ levels)
  | [] => by simp [jsonItems, itemsFault?]
  | item :: items => by
    rw [jsonItems, itemsFault?, Option.or_eq_none_iff, dumpFault?_toValue_eq_none_iff item,
      itemsFault?_jsonItems_eq_none_iff items, List.forall_mem_cons]

theorem entriesFault?_jsonEntries_eq_none_iff {levels : Nat} : (members : List (String × Json)) →
    (entriesFault? levels (jsonEntries members) = none ↔
      ∀ member ∈ members, member.2.depth ≤ levels)
  | [] => by simp [jsonEntries, entriesFault?]
  | (_, value) :: members => by
    rw [jsonEntries, entriesFault?, Option.or_eq_none_iff, keyFault?, Option.none_or,
      dumpFault?_toValue_eq_none_iff value, entriesFault?_jsonEntries_eq_none_iff members,
      List.forall_mem_cons]
    all_goals simp

end

end EntityCompiler.Value
