import EntityCompiler.Json.Basic
import Mathlib.Data.List.Nodup
import Mathlib.Tactic

/-!
# The order of members

Values that differ in the order of members only, at any depth.  Sorting the members of every object
stays within such values, and where no object has a key twice it gives them one common form.
-/

namespace EntityCompiler.Json

/-- Values that are the same up to the order of the members of objects. -/
inductive Reordered : Json → Json → Prop
  | refl (value : Json) : Reordered value value
  | symm {a b : Json} : Reordered a b → Reordered b a
  | trans {a b c : Json} : Reordered a b → Reordered b c → Reordered a c
  | permutation {members others : List (String × Json)} :
      members.Perm others → Reordered (.object members) (.object others)
  | item {a b : Json} (before after : List Json) :
      Reordered a b → Reordered (.array (before ++ a :: after)) (.array (before ++ b :: after))
  | member {a b : Json} (before : List (String × Json)) (key : String)
      (after : List (String × Json)) : Reordered a b →
      Reordered (.object (before ++ (key, a) :: after)) (.object (before ++ (key, b) :: after))

/-! ## All parts at once -/

theorem Reordered.array_append (before : List Json) {items others : List Json}
    (h : List.Forall₂ Reordered items others) :
    Reordered (.array (before ++ items)) (.array (before ++ others)) := by
  induction h generalizing before with
  | nil => exact .refl _
  | @cons a b items others hitem hitems ih =>
    have hrest := ih (before ++ [b])
    rw [List.append_assoc, List.append_assoc] at hrest
    exact (Reordered.item before items hitem).trans hrest

theorem Reordered.array {items others : List Json} (h : List.Forall₂ Reordered items others) :
    Reordered (.array items) (.array others) :=
  Reordered.array_append [] h

/-- Members with the same key and with values that are the same up to order. -/
def MemberReordered (a b : String × Json) : Prop :=
  a.1 = b.1 ∧ Reordered a.2 b.2

theorem Reordered.object_append (before : List (String × Json))
    {members others : List (String × Json)} (h : List.Forall₂ MemberReordered members others) :
    Reordered (.object (before ++ members)) (.object (before ++ others)) := by
  induction h generalizing before with
  | nil => exact .refl _
  | @cons a b members others hmember hmembers ih =>
    obtain ⟨key, a⟩ := a
    obtain ⟨other, b⟩ := b
    obtain ⟨hkey, hvalue⟩ := hmember
    obtain rfl : key = other := hkey
    have hrest := ih (before ++ [(key, b)])
    rw [List.append_assoc, List.append_assoc] at hrest
    exact (Reordered.member before key members hvalue).trans hrest

theorem Reordered.object {members others : List (String × Json)}
    (h : List.Forall₂ MemberReordered members others) :
    Reordered (.object members) (.object others) :=
  Reordered.object_append [] h

/-! ## Sorted members -/

theorem sortKeysItems_eq_map (items : List Json) : sortKeysItems items = items.map sortKeys := by
  induction items with
  | nil => rfl
  | cons item items ih => rw [sortKeysItems, ih, List.map_cons]

/-- A member with the members inside its value sorted. -/
def sortedMember (member : String × Json) : String × Json :=
  (member.1, member.2.sortKeys)

theorem sortKeysMembers_eq_map (members : List (String × Json)) :
    sortKeysMembers members = members.map sortedMember := by
  induction members with
  | nil => rfl
  | cons member members ih => rw [sortKeysMembers, ih, List.map_cons, sortedMember]

/-- Whether a member may stand before another in a sorted object. -/
def keyLe (a b : String × Json) : Bool :=
  decide (a.1 ≤ b.1)

theorem sortKeys_array (items : List Json) :
    (Json.array items).sortKeys = .array (items.map sortKeys) := by
  rw [sortKeys, sortKeysItems_eq_map]

theorem sortKeys_object (members : List (String × Json)) :
    (Json.object members).sortKeys = .object ((members.map sortedMember).mergeSort keyLe) := by
  rw [sortKeys, sortKeysMembers_eq_map]
  rfl

mutual

/-- Sorting members changes nothing but their order. -/
theorem reordered_sortKeys : (value : Json) → Reordered value value.sortKeys
  | .null => .refl _
  | .bool _ => .refl _
  | .int _ => .refl _
  | .float _ => .refl _
  | .text _ => .refl _
  | .array items => by
    rw [sortKeys_array]
    exact Reordered.array (forall₂_sortKeys items)
  | .object members => by
    rw [sortKeys_object]
    exact (Reordered.object (forall₂_sortedMember members)).trans
      (.permutation (List.mergeSort_perm _ _).symm)

theorem forall₂_sortKeys : (items : List Json) →
    List.Forall₂ Reordered items (items.map sortKeys)
  | [] => .nil
  | item :: items => .cons (reordered_sortKeys item) (forall₂_sortKeys items)

theorem forall₂_sortedMember : (members : List (String × Json)) →
    List.Forall₂ MemberReordered members (members.map sortedMember)
  | [] => .nil
  | (_, value) :: members =>
    .cons ⟨rfl, reordered_sortKeys value⟩ (forall₂_sortedMember members)

end

theorem reordered_of_sortKeys_eq {a b : Json} (h : a.sortKeys = b.sortKeys) : Reordered a b :=
  (reordered_sortKeys a).trans (h ▸ (reordered_sortKeys b).symm)

/-! ## Distinct keys -/

mutual

/-- Whether no object of a value has a key twice. -/
def Keyed : Json → Prop
  | .array items => ItemsKeyed items
  | .object members => (members.map (·.1)).Nodup ∧ MembersKeyed members
  | _ => True

def ItemsKeyed : List Json → Prop
  | [] => True
  | item :: rest => Keyed item ∧ ItemsKeyed rest

def MembersKeyed : List (String × Json) → Prop
  | [] => True
  | (_, value) :: rest => Keyed value ∧ MembersKeyed rest

end

theorem itemsKeyed_iff {items : List Json} : ItemsKeyed items ↔ ∀ item ∈ items, Keyed item := by
  induction items with
  | nil => simp [ItemsKeyed]
  | cons item items ih => rw [ItemsKeyed, ih, List.forall_mem_cons]

theorem membersKeyed_iff {members : List (String × Json)} :
    MembersKeyed members ↔ ∀ member ∈ members, Keyed member.2 := by
  induction members with
  | nil => simp [MembersKeyed]
  | cons member members ih => rw [MembersKeyed, ih, List.forall_mem_cons]

theorem keyed_array {items : List Json} : Keyed (.array items) ↔ ∀ item ∈ items, Keyed item := by
  rw [Keyed, itemsKeyed_iff]

theorem keyed_object {members : List (String × Json)} : Keyed (.object members) ↔
    (members.map (·.1)).Nodup ∧ ∀ member ∈ members, Keyed member.2 := by
  rw [Keyed, membersKeyed_iff]

theorem keyed_iff_of_reordered {a b : Json} (h : Reordered a b) : Keyed a ↔ Keyed b := by
  induction h with
  | refl value => rfl
  | symm _ ih => exact ih.symm
  | trans _ _ ihab ihbc => exact ihab.trans ihbc
  | permutation hperm =>
    rw [keyed_object, keyed_object, (hperm.map (·.1)).nodup_iff]
    simp only [hperm.mem_iff]
  | item before after _ ih =>
    simp only [keyed_array, List.forall_mem_append, List.forall_mem_cons, ih]
  | member before key after _ ih =>
    simp only [keyed_object, List.forall_mem_append, List.forall_mem_cons, ih, List.map_append,
      List.map_cons]

/-! ## The common form -/

theorem pairwise_mergeSort_keyLe (members : List (String × Json)) :
    (members.mergeSort keyLe).Pairwise fun a b ↦ a.1 ≤ b.1 := by
  have htrans : ∀ a b c : String × Json, keyLe a b = true → keyLe b c = true → keyLe a c = true := by
    intro a b c hab hbc
    exact decide_eq_true (String.le_trans (of_decide_eq_true hab) (of_decide_eq_true hbc))
  have htotal : ∀ a b : String × Json, (keyLe a b || keyLe b a) = true := by
    intro a b
    rcases String.le_total a.1 b.1 with hle | hle
    · simp [keyLe, hle]
    · simp [keyLe, hle]
  exact (List.pairwise_mergeSort htrans htotal members).imp fun hle ↦ of_decide_eq_true hle

/-- Members in any order have one sorted form if their keys are distinct. -/
theorem mergeSort_keyLe_eq_of_perm {members others : List (String × Json)}
    (hkeys : (members.map (·.1)).Nodup) (hperm : members.Perm others) :
    members.mergeSort keyLe = others.mergeSort keyLe := by
  have hsorted : (members.mergeSort keyLe).Perm (others.mergeSort keyLe) :=
    ((List.mergeSort_perm members keyLe).trans hperm).trans (List.mergeSort_perm others keyLe).symm
  refine List.Perm.eq_of_pairwise (fun a b ha hb hab hba ↦ ?_) (pairwise_mergeSort_keyLe members)
    (pairwise_mergeSort_keyLe others) hsorted
  have hmema : a ∈ members := List.mem_mergeSort.mp ha
  have hmemb : b ∈ members := hperm.mem_iff.mpr (List.mem_mergeSort.mp hb)
  exact List.inj_on_of_nodup_map hkeys hmema hmemb (String.le_antisymm hab hba)

theorem map_fst_sortedMember (members : List (String × Json)) :
    (members.map sortedMember).map (·.1) = members.map (·.1) := by
  rw [List.map_map]
  rfl

/-- Values that are the same up to order have one sorted form if their keys are distinct. -/
theorem sortKeys_eq_of_reordered {a b : Json} (h : Reordered a b) (ha : Keyed a) :
    a.sortKeys = b.sortKeys := by
  induction h with
  | refl value => rfl
  | symm hba ih => exact (ih ((keyed_iff_of_reordered hba).mpr ha)).symm
  | trans hab _ ihab ihbc =>
    exact (ihab ha).trans (ihbc ((keyed_iff_of_reordered hab).mp ha))
  | permutation hperm =>
    rw [sortKeys_object, sortKeys_object]
    congr 1
    refine mergeSort_keyLe_eq_of_perm ?_ (hperm.map sortedMember)
    rw [map_fst_sortedMember]
    exact (keyed_object.mp ha).1
  | item before after _ ih =>
    have hitem := ih (keyed_array.mp ha _ (List.mem_append_right _ List.mem_cons_self))
    simp only [sortKeys_array, List.map_append, List.map_cons, hitem]
  | member before key after _ ih =>
    have hmember := ih ((keyed_object.mp ha).2 _ (List.mem_append_right _ List.mem_cons_self))
    simp only [sortKeys_object, List.map_append, List.map_cons, sortedMember, hmember]

/-! ## Looking up members -/

theorem member?_eq_some_iff {members : List (String × Json)} (hkeys : (members.map (·.1)).Nodup)
    {key : String} {value : Json} :
    (Json.object members).member? key = some value ↔ (key, value) ∈ members := by
  constructor
  · intro h
    obtain ⟨member, hfind, rfl⟩ := Option.map_eq_some_iff.mp h
    have hkey : member.1 = key := by simpa using List.find?_some hfind
    rw [← hkey]
    exact List.mem_of_find?_eq_some hfind
  · intro hmem
    have hsome : (members.find? fun member ↦ member.1 = key).isSome = true :=
      List.find?_isSome.mpr ⟨_, hmem, by simp⟩
    obtain ⟨member, hfind⟩ := Option.isSome_iff_exists.mp hsome
    have hkey : member.1 = key := by simpa using List.find?_some hfind
    have hsame : member = (key, value) :=
      List.inj_on_of_nodup_map hkeys (List.mem_of_find?_eq_some hfind) hmem hkey
    simp [member?, hfind, hsame]

/-- Sorting the members of an object with distinct keys keeps what is found under a key. -/
theorem member?_sortKeys {members : List (String × Json)} (hkeys : (members.map (·.1)).Nodup)
    (key : String) :
    (Json.object members).sortKeys.member? key =
      ((Json.object members).member? key).map sortKeys := by
  have hsorted : (((members.map sortedMember).mergeSort keyLe).map (·.1)).Nodup := by
    rw [((List.mergeSort_perm _ keyLe).map (·.1)).nodup_iff, map_fst_sortedMember]
    exact hkeys
  ext value
  rw [sortKeys_object, member?_eq_some_iff hsorted, List.mem_mergeSort, List.mem_map,
    Option.map_eq_some_iff]
  constructor
  · rintro ⟨⟨label, found⟩, hmem, hsame⟩
    obtain ⟨rfl, rfl⟩ := Prod.mk.inj hsame
    exact ⟨found, (member?_eq_some_iff hkeys).mpr hmem, rfl⟩
  · rintro ⟨found, hfound, rfl⟩
    exact ⟨(key, found), (member?_eq_some_iff hkeys).mp hfound, rfl⟩

end EntityCompiler.Json
