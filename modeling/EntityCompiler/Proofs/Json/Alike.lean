import EntityCompiler.Proofs.Value.Equality
import EntityCompiler.Proofs.Value.Respelled
import EntityCompiler.Value.Depth

/-!
# Equality of JSON values

Arrays are equal item by item, and objects whatever the order of their members.  Where no object has
a key twice, equal values have the same number of levels.
-/

namespace EntityCompiler

namespace Value

theorem itemsAlike_iff {vs ws : List Value} :
    itemsAlike vs ws = true ↔ List.Forall₂ (fun v w ↦ v.alike w = true) vs ws := by
  induction vs generalizing ws with
  | nil => cases ws <;> simp [itemsAlike]
  | cons v vs ih => cases ws <;> simp [itemsAlike, ih]

theorem entriesAlike_iff {entries others : List (Value × Value)} :
    entriesAlike entries others = true ↔ ∀ entry ∈ entries, ∃ other ∈ others,
      entry.1.alike other.1 = true ∧ entry.2.alike other.2 = true := by
  induction entries with
  | nil => simp [entriesAlike]
  | cons entry entries ih =>
    rw [entriesAlike, Bool.and_eq_true, ih, List.forall_mem_cons, List.any_eq_true]
    simp only [Bool.and_eq_true]

end Value

namespace Json

/-! ## Parts of equal values -/

theorem alike_refl (value : Json) : value.alike value = true :=
  Value.alike_refl _ (Value.nanFree_toValue value)

theorem alike_null_iff {value : Json} : value.alike .null = true ↔ value = .null := by
  cases value <;> simp [alike, toValue, Value.alike, Value.scalarAlike, Value.integral?]

theorem null_alike_iff {value : Json} : Json.null.alike value = true ↔ value = .null := by
  cases value <;> simp [alike, toValue, Value.alike, Value.scalarAlike, Value.integral?]

/-- Only an array equals an array. -/
theorem array_alike_iff {items : List Json} {value : Json} : (Json.array items).alike value = true ↔
    ∃ others, value = .array others ∧ List.Forall₂ (fun a b ↦ a.alike b = true) items others := by
  cases value with
  | array others =>
    simp [alike, toValue, Value.alike, Value.itemsAlike_iff, Value.jsonItems_eq_map]
  | _ => simp [alike, toValue, Value.alike]

/-- Only an object equals an object. -/
theorem object_alike_iff {members : List (String × Json)} {value : Json} :
    (Json.object members).alike value = true ↔
      ∃ others, value = .object others ∧ members.length = others.length ∧
        ∀ member ∈ members, ∃ other ∈ others,
          member.1 = other.1 ∧ member.2.alike other.2 = true := by
  cases value with
  | object others =>
    have hany (member : String × Json) :
        (∃ entry ∈ others.map Value.memberEntry, (Value.memberEntry member).1.alike entry.1 = true ∧
          (Value.memberEntry member).2.alike entry.2 = true) ↔
        ∃ other ∈ others, member.1 = other.1 ∧ member.2.alike other.2 = true := by
      simp only [List.mem_map, exists_exists_and_eq_and, Value.memberEntry, alike, Value.alike,
        Value.scalarAlike, decide_eq_true_eq]
    rw [alike, toValue, toValue, Value.alike, Bool.and_eq_true, Value.jsonEntries_eq_map,
      Value.jsonEntries_eq_map, Value.entriesAlike_iff, List.forall_mem_map]
    simp only [hany, List.length_map, decide_eq_true_eq, object.injEq, exists_eq_left']
  | _ => simp [alike, toValue, Value.alike]

/-- A value that equals one without parts has no parts itself. -/
theorem depth_eq_one_of_scalarAlike {v w : Value} (h : v.scalarAlike w = true) : w.depth = 1 := by
  cases w with
  | list items => rw [Value.scalarAlike_list] at h; cases h
  | dict entries => rw [Value.scalarAlike_dict] at h; cases h
  | tuple items =>
    cases v with
    | columnType t => cases t <;> simp [Value.scalarAlike, Value.integral?] at h
    | _ => simp [Value.scalarAlike, Value.integral?] at h
  | collection kind items =>
    cases v with
    | columnType t => cases t <;> simp [Value.scalarAlike, Value.integral?] at h
    | _ => simp [Value.scalarAlike, Value.integral?] at h
  | _ => rfl

/-! ## Levels -/

theorem depth_array_le {items others : List Json}
    (h : ∀ item ∈ items, ∃ other ∈ others, item.depth ≤ other.depth) :
    (Json.array items).depth ≤ (Json.array others).depth := by
  simp only [depth, toValue, Value.depth, Value.jsonItems_eq_map, Nat.add_le_add_iff_right]
  rw [Value.itemsDepth_le_iff, List.forall_mem_map]
  intro item hitem
  obtain ⟨other, hother, hle⟩ := h item hitem
  exact hle.trans (Value.itemsDepth_le_iff.mp le_rfl _ (List.mem_map_of_mem hother))

theorem depth_object_le {members others : List (String × Json)}
    (h : ∀ member ∈ members, ∃ other ∈ others, member.2.depth ≤ other.2.depth) :
    (Json.object members).depth ≤ (Json.object others).depth := by
  simp only [depth, toValue, Value.depth, Value.jsonEntries_eq_map, Nat.add_le_add_iff_right]
  rw [Value.entriesDepth_le_iff, List.forall_mem_map]
  intro member hmember
  obtain ⟨other, hother, hle⟩ := h member hmember
  exact hle.trans
    (Value.entriesDepth_le_iff.mp le_rfl (Value.memberEntry other) (List.mem_map_of_mem hother))

/-- Where the keys are distinct, each member of the second of two equal objects has its equal in the
first. -/
theorem exists_alike_member {members others : List (String × Json)}
    (hmembers : (members.map (·.1)).Nodup) (hothers : (others.map (·.1)).Nodup)
    (hlength : members.length = others.length)
    (h : ∀ member ∈ members, ∃ other ∈ others, member.1 = other.1 ∧ member.2.alike other.2 = true)
    {other : String × Json} (hother : other ∈ others) :
    ∃ member ∈ members, member.2.alike other.2 = true := by
  -- Equality looks for the members of the first object only.  Distinct keys that are found among as
  -- many others are all of these, which gives the other direction.
  have hkeys : members.map (·.1) ⊆ others.map (·.1) := by
    intro key hkey
    obtain ⟨member, hmember, rfl⟩ := List.mem_map.mp hkey
    obtain ⟨found, hfound, hsame, -⟩ := h member hmember
    exact hsame ▸ List.mem_map_of_mem hfound
  have hperm : (members.map (·.1)).Perm (others.map (·.1)) :=
    (hmembers.subperm hkeys).perm_of_length_le (by simp [hlength])
  obtain ⟨member, hmember, hkey⟩ :=
    List.mem_map.mp (hperm.mem_iff.mpr (List.mem_map_of_mem (f := (·.1)) hother))
  obtain ⟨found, hfound, hsame, halike⟩ := h member hmember
  obtain rfl : found = other :=
    List.inj_on_of_nodup_map hothers hfound hother (hsame.symm.trans hkey)
  exact ⟨member, hmember, halike⟩

/-- Whether the values that equal a given one have as many levels. -/
def LevelsKept (a : Json) : Prop :=
  ∀ b : Json, a.Keyed → b.Keyed → a.alike b = true → a.depth = b.depth

theorem levelsKept_of_scalar {a : Json} (hdepth : a.depth = 1)
    (h : ∀ w : Value, a.toValue.alike w = a.toValue.scalarAlike w) : LevelsKept a := by
  intro b _ _ halike
  rw [alike, h] at halike
  rw [hdepth, depth, depth_eq_one_of_scalarAlike halike]

theorem levelsKept_array {items : List Json} (h : ∀ item ∈ items, LevelsKept item) :
    LevelsKept (.array items) := by
  intro b hkeyed hb halike
  obtain ⟨others, rfl, hitems⟩ := array_alike_iff.mp halike
  rw [keyed_array] at hkeyed hb
  have hdepth {item other : Json} (hitem : item ∈ items) (hother : other ∈ others)
      (halike : item.alike other = true) : item.depth = other.depth :=
    h item hitem other (hkeyed item hitem) (hb other hother) halike
  refine le_antisymm (depth_array_le fun item hitem ↦ ?_) (depth_array_le fun other hother ↦ ?_)
  · obtain ⟨other, hother, halike⟩ := exists_of_forall₂_of_mem hitems.flip hitem
    exact ⟨other, hother, (hdepth hitem hother halike).le⟩
  · obtain ⟨item, hitem, halike⟩ := exists_of_forall₂_of_mem hitems hother
    exact ⟨item, hitem, (hdepth hitem hother halike).ge⟩

theorem levelsKept_object {members : List (String × Json)}
    (h : ∀ member ∈ members, LevelsKept member.2) : LevelsKept (.object members) := by
  intro b hkeyed hb halike
  obtain ⟨others, rfl, hlength, hmembers⟩ := object_alike_iff.mp halike
  rw [keyed_object] at hkeyed hb
  have hdepth {member other : String × Json} (hmember : member ∈ members) (hother : other ∈ others)
      (halike : member.2.alike other.2 = true) : member.2.depth = other.2.depth :=
    h member hmember other.2 (hkeyed.2 member hmember) (hb.2 other hother) halike
  refine le_antisymm (depth_object_le fun member hmember ↦ ?_)
    (depth_object_le fun other hother ↦ ?_)
  · obtain ⟨other, hother, -, halike⟩ := hmembers member hmember
    exact ⟨other, hother, (hdepth hmember hother halike).le⟩
  · obtain ⟨member, hmember, halike⟩ :=
      exists_alike_member hkeyed.1 hb.1 hlength hmembers hother
    exact ⟨member, hmember, (hdepth hmember hother halike).ge⟩

mutual

/-- Equal values without repeated keys have the same number of levels. -/
theorem levelsKept : (a : Json) → LevelsKept a
  | .null => levelsKept_of_scalar rfl fun _ ↦ rfl
  | .bool _ => levelsKept_of_scalar rfl fun _ ↦ rfl
  | .int _ => levelsKept_of_scalar rfl fun _ ↦ rfl
  | .float _ => levelsKept_of_scalar rfl fun _ ↦ rfl
  | .text _ => levelsKept_of_scalar rfl fun _ ↦ rfl
  | .array items => levelsKept_array (forall_mem_levelsKept items)
  | .object members => levelsKept_object (forall_mem_levelsKept_members members)

theorem forall_mem_levelsKept : (items : List Json) → ∀ item ∈ items, LevelsKept item
  | [] => List.forall_mem_nil _
  | item :: items => List.forall_mem_cons.mpr ⟨levelsKept item, forall_mem_levelsKept items⟩

theorem forall_mem_levelsKept_members : (members : List (String × Json)) →
    ∀ member ∈ members, LevelsKept member.2
  | [] => List.forall_mem_nil _
  | (_, value) :: members =>
    List.forall_mem_cons.mpr ⟨levelsKept value, forall_mem_levelsKept_members members⟩

end

/-! ## Relations that pass on to arrays and objects -/

/-- Members with the same key and related values. -/
def MemberRel (R : Json → Json → Prop) (a b : String × Json) : Prop :=
  a.1 = b.1 ∧ R a.2 b.2

/-- A relation that holds of arrays and of objects whenever it holds of their parts one by one. -/
structure Congruence (R : Json → Json → Prop) : Prop where
  refl (value : Json) : R value value
  array {items others : List Json} : List.Forall₂ R items others → R (.array items) (.array others)
  object {members others : List (String × Json)} :
    List.Forall₂ (MemberRel R) members others → R (.object members) (.object others)

theorem congruence_eq : Congruence (· = ·) where
  refl _ := rfl
  array h := by
    rw [List.forall₂_eq_eq_eq] at h
    rw [h]
  object h := by
    congr
    rw [← List.forall₂_eq_eq_eq]
    exact h.imp fun a b hab ↦ Prod.ext hab.1 hab.2

theorem congruence_alike : Congruence fun a b ↦ a.alike b = true where
  refl := alike_refl
  array h := array_alike_iff.mpr ⟨_, rfl, h⟩
  object h := object_alike_iff.mpr
    ⟨_, rfl, h.length_eq, fun _ hmember ↦ exists_of_forall₂_of_mem h.flip hmember⟩

end Json

end EntityCompiler
