import EntityCompiler.Proofs.Json.Order
import EntityCompiler.Value.Plain

/-!
# Plain forms of values

Values that differ in the order of entries only, and the forms that are taken of a value: the one
without tuples and the plain one.  A JSON value has itself as its plain form, so that the plain form
determines it.
-/

namespace EntityCompiler.Value

/-- Values that are the same up to the order of the entries of dictionaries. -/
inductive Reordered : Value → Value → Prop
  | refl (v : Value) : Reordered v v
  | symm {v w : Value} : Reordered v w → Reordered w v
  | trans {u v w : Value} : Reordered u v → Reordered v w → Reordered u w
  | permutation {entries others : List (Value × Value)} :
      entries.Perm others → Reordered (.dict entries) (.dict others)
  | item {v w : Value} (before after : List Value) :
      Reordered v w → Reordered (.list (before ++ v :: after)) (.list (before ++ w :: after))
  | entry {v w : Value} (before : List (Value × Value)) (key : Value)
      (after : List (Value × Value)) : Reordered v w →
      Reordered (.dict (before ++ (key, v) :: after)) (.dict (before ++ (key, w) :: after))

/-- A text stands for itself. -/
theorem toJson?_of_text? {v : Value} {s : String} (h : v.text? = some s) :
    v.toJson? = some (.text s) := by
  rcases text?_eq_some_iff.mp h with rfl | ⟨p, rfl, rfl⟩ <;> rfl

/-! ## Distinct textual keys -/

mutual

/-- Whether the keys of every dictionary in a value are distinct texts. -/
def Keyed : Value → Prop
  | .list items => ItemsKeyed items
  | .tuple items => ItemsKeyed items
  | .collection _ items => ItemsKeyed items
  | .dict entries => (entries.map (·.1)).Nodup ∧ EntriesKeyed entries
  | _ => True

def ItemsKeyed : List Value → Prop
  | [] => True
  | item :: rest => Keyed item ∧ ItemsKeyed rest

def EntriesKeyed : List (Value × Value) → Prop
  | [] => True
  | (key, value) :: rest => (∃ name, key = .text name) ∧ Keyed value ∧ EntriesKeyed rest

end

theorem itemsKeyed_iff {items : List Value} : ItemsKeyed items ↔ ∀ item ∈ items, Keyed item := by
  induction items with
  | nil => simp [ItemsKeyed]
  | cons item items ih => rw [ItemsKeyed, ih, List.forall_mem_cons]

theorem entriesKeyed_iff {entries : List (Value × Value)} :
    EntriesKeyed entries ↔ ∀ entry ∈ entries, (∃ name, entry.1 = .text name) ∧ Keyed entry.2 := by
  induction entries with
  | nil => simp [EntriesKeyed]
  | cons entry entries ih => rw [EntriesKeyed, ih, List.forall_mem_cons, and_assoc]

theorem keyed_list {items : List Value} : Keyed (.list items) ↔ ∀ item ∈ items, Keyed item := by
  rw [Keyed, itemsKeyed_iff]

theorem keyed_tuple {items : List Value} : Keyed (.tuple items) ↔ ∀ item ∈ items, Keyed item := by
  rw [Keyed, itemsKeyed_iff]

theorem keyed_dict {entries : List (Value × Value)} : Keyed (.dict entries) ↔
    (entries.map (·.1)).Nodup ∧
      ∀ entry ∈ entries, (∃ name, entry.1 = .text name) ∧ Keyed entry.2 := by
  rw [Keyed, entriesKeyed_iff]

/-- The values of a dictionary with distinct textual keys have such keys themselves. -/
theorem keyed_middle {before after : List (Value × Value)} {key v : Value}
    (h : Keyed (.dict (before ++ (key, v) :: after))) : Keyed v :=
  ((keyed_dict.mp h).2 _ (List.mem_append_right _ List.mem_cons_self)).2

/-- What is found under a key is an entry of it. -/
theorem mem_of_lookup? {entries : List (Value × Value)} {key : String} {v : Value}
    (h : lookup? key entries = some v) : ∃ label, label.text? = some key ∧ (label, v) ∈ entries := by
  induction entries with
  | nil => simp [lookup?] at h
  | cons entry entries ih =>
    obtain ⟨label, found⟩ := entry
    rw [lookup?] at h
    split at h
    · rename_i hlabel
      exact ⟨label, hlabel, Option.some.inj h ▸ List.mem_cons_self⟩
    · obtain ⟨other, hother, hmem⟩ := ih h
      exact ⟨other, hother, List.mem_cons_of_mem _ hmem⟩

/-- A key is not found exactly if no entry has it. -/
theorem lookup?_eq_none_iff {entries : List (Value × Value)} {key : String} :
    lookup? key entries = none ↔ ∀ entry ∈ entries, entry.1.text? ≠ some key := by
  induction entries with
  | nil => simp [lookup?]
  | cons entry entries ih =>
    obtain ⟨label, found⟩ := entry
    rw [lookup?, List.forall_mem_cons]
    by_cases hlabel : label.text? = some key
    · simp [hlabel]
    · rw [if_neg hlabel, ih]
      simp [hlabel]

/-- Whether the keys of a dictionary are distinct texts. -/
def DistinctTexts (entries : List (Value × Value)) : Prop :=
  (entries.map (·.1)).Nodup ∧ ∀ entry ∈ entries, ∃ name, entry.1 = .text name

theorem Keyed.distinctTexts {entries : List (Value × Value)} (h : Keyed (.dict entries)) :
    DistinctTexts entries :=
  ⟨(keyed_dict.mp h).1, fun entry hentry ↦ ((keyed_dict.mp h).2 entry hentry).1⟩

/-- What is found under a key is its entry if the keys are distinct texts. -/
theorem lookup?_eq_some_iff {entries : List (Value × Value)} (h : DistinctTexts entries)
    {key : String} {v : Value} : lookup? key entries = some v ↔ (.text key, v) ∈ entries := by
  obtain ⟨hkeys, htexts⟩ := h
  induction entries with
  | nil => simp [lookup?]
  | cons entry entries ih =>
    obtain ⟨label, value⟩ := entry
    rw [List.map_cons, List.nodup_cons] at hkeys
    rw [List.forall_mem_cons] at htexts
    obtain ⟨⟨name, hname⟩, hrest⟩ := htexts
    obtain rfl : label = .text name := hname
    rw [lookup?_text_cons, List.mem_cons, Prod.mk.injEq, text.injEq]
    by_cases hlabel : name = key
    · subst hlabel
      have habsent : (Value.text name, v) ∉ entries := fun hmem ↦
        hkeys.1 (List.mem_map.mpr ⟨_, hmem, rfl⟩)
      simp [habsent, eq_comm]
    · rw [if_neg hlabel, ih hkeys.2 hrest]
      simp [Ne.symm hlabel]

/-! ## Plain members -/

theorem plainItems_eq_map (items : List Value) : plainItems items = items.map plain := by
  induction items with
  | nil => rfl
  | cons item items ih => rw [plainItems, ih, List.map_cons]

/-- The member that an entry becomes. -/
def plainMember (entry : Value × Value) : String × Json :=
  (keyText entry.1, plain entry.2)

theorem putMember_of_notMem {key : String} {value : Json} {members : List (String × Json)}
    (h : key ∉ members.map (·.1)) : Json.putMember key value members = members ++ [(key, value)] := by
  induction members with
  | nil => rfl
  | cons member members ih =>
    obtain ⟨label, found⟩ := member
    simp only [List.map_cons, List.mem_cons, not_or] at h
    rw [Json.putMember, if_neg (Ne.symm h.1), ih h.2, List.cons_append]

/-- Entries with different key texts become members one by one. -/
theorem plainEntries_eq_append {members : List (String × Json)} {entries : List (Value × Value)}
    (h : ((members ++ entries.map plainMember).map (·.1)).Nodup) :
    plainEntries members entries = members ++ entries.map plainMember := by
  induction entries generalizing members with
  | nil => simp [plainEntries]
  | cons entry entries ih =>
    obtain ⟨key, value⟩ := entry
    have hsplit : members ++ ((key, value) :: entries).map plainMember =
        (members ++ [(keyText key, plain value)]) ++ entries.map plainMember := by
      simp [plainMember]
    rw [hsplit] at h ⊢
    have hnew : keyText key ∉ members.map (·.1) := by
      intro hmem
      rw [List.map_append, List.map_append] at h
      have hdisjoint := (List.nodup_append.mp (List.nodup_append.mp h).1).2.2
      exact hdisjoint _ hmem _ (List.mem_singleton_self _) rfl
    rw [plainEntries, putMember_of_notMem hnew]
    exact ih h

theorem plain_dict {entries : List (Value × Value)}
    (h : ((entries.map plainMember).map (·.1)).Nodup) :
    plain (.dict entries) = .object (entries.map plainMember) := by
  rw [plain, plainEntries_eq_append (by simpa using h), List.nil_append]

/-! ## Values without tuples -/

theorem untupledEntries_eq_map (entries : List (Value × Value)) :
    untupledEntries entries = entries.map fun entry ↦ (entry.1, entry.2.untupled) := by
  induction entries with
  | nil => rfl
  | cons entry entries ih => rw [untupledEntries, ih, List.map_cons]

mutual

/-- Tuples do not show in plain forms. -/
theorem plain_untupled : (v : Value) → v.untupled.plain = v.plain
  | .null => rfl
  | .bool _ => rfl
  | .int _ => rfl
  | .float _ => rfl
  | .text _ => rfl
  | .bytes _ => rfl
  | .moment _ => rfl
  | .collection _ _ => rfl
  | .columnType _ => rfl
  | .list items => by rw [untupled, plain, plain, plainItems_untupledItems]
  | .tuple items => by rw [untupled, plain, plain, plainItems_untupledItems]
  | .dict entries => by rw [untupled, plain, plain, plainEntries_untupledEntries]

theorem plainItems_untupledItems : (items : List Value) →
    plainItems (untupledItems items) = plainItems items
  | [] => rfl
  | item :: items => by
    rw [untupledItems, plainItems, plainItems, plain_untupled item, plainItems_untupledItems items]

theorem plainEntries_untupledEntries {members : List (String × Json)} :
    (entries : List (Value × Value)) →
      plainEntries members (untupledEntries entries) = plainEntries members entries
  | [] => rfl
  | (key, value) :: entries => by
    rw [untupledEntries, plainEntries, plainEntries, plain_untupled value,
      plainEntries_untupledEntries entries]

end

/-! ## JSON values -/

theorem jsonItems_eq_map (items : List Json) : jsonItems items = items.map Json.toValue := by
  induction items with
  | nil => rfl
  | cons item items ih => rw [jsonItems, ih, List.map_cons]

/-- The entry that a member becomes. -/
def memberEntry (member : String × Json) : Value × Value :=
  (.text member.1, member.2.toValue)

theorem jsonEntries_eq_map (members : List (String × Json)) :
    jsonEntries members = members.map memberEntry := by
  induction members with
  | nil => rfl
  | cons member members ih => rw [jsonEntries, ih, List.map_cons, memberEntry]

mutual

/-- A JSON value without repeated keys has itself as its plain form. -/
theorem plain_toValue : (value : Json) → value.Keyed → value.toValue.plain = value
  | .null, _ => rfl
  | .bool _, _ => rfl
  | .int _, _ => rfl
  | .float _, _ => rfl
  | .text _, _ => rfl
  | .array items, h => by
    rw [Json.toValue, jsonItems_eq_map, plain, plainItems_eq_map, List.map_map,
      map_plain_toValue items (Json.keyed_array.mp h)]
  | .object members, h => by
    have hmembers := map_plainMember_memberEntry members (Json.keyed_object.mp h).2
    rw [Json.toValue, jsonEntries_eq_map, plain_dict, hmembers]
    rw [hmembers]
    exact (Json.keyed_object.mp h).1

theorem map_plain_toValue : (items : List Json) → (∀ item ∈ items, item.Keyed) →
    items.map (plain ∘ Json.toValue) = items
  | [], _ => rfl
  | item :: items, h => by
    rw [List.forall_mem_cons] at h
    rw [List.map_cons, map_plain_toValue items h.2, Function.comp_apply, plain_toValue item h.1]

theorem map_plainMember_memberEntry : (members : List (String × Json)) →
    (∀ member ∈ members, member.2.Keyed) → (members.map memberEntry).map plainMember = members
  | [], _ => rfl
  | (key, value) :: members, h => by
    rw [List.forall_mem_cons] at h
    rw [List.map_cons, List.map_cons, map_plainMember_memberEntry members h.2, memberEntry,
      plainMember, plain_toValue value h.1, keyText]

end

mutual

/-- The value of a JSON value stands for it. -/
theorem toJson?_toValue : (value : Json) → value.toValue.toJson? = some value
  | .null => rfl
  | .bool _ => rfl
  | .int _ => rfl
  | .float _ => rfl
  | .text _ => rfl
  | .array items => by rw [Json.toValue, toJson?, itemsToJson?_jsonItems items, Option.map_some]
  | .object members => by
    rw [Json.toValue, toJson?, entriesToJson?_jsonEntries members, Option.map_some]

theorem itemsToJson?_jsonItems : (items : List Json) → itemsToJson? (jsonItems items) = some items
  | [] => rfl
  | item :: items => by
    rw [jsonItems, itemsToJson?, toJson?_toValue item, itemsToJson?_jsonItems items]
    rfl

theorem entriesToJson?_jsonEntries : (members : List (String × Json)) →
    entriesToJson? (jsonEntries members) = some members
  | [] => rfl
  | (_, value) :: members => by
    rw [jsonEntries, entriesToJson?, toJson?_toValue value, entriesToJson?_jsonEntries members]
    rfl

end

theorem reordered_toValue {a b : Json} (h : a.Reordered b) : Reordered a.toValue b.toValue := by
  induction h with
  | refl value => exact .refl _
  | symm _ ih => exact ih.symm
  | trans _ _ ihab ihbc => exact ihab.trans ihbc
  | permutation hperm =>
    rw [Json.toValue, Json.toValue, jsonEntries_eq_map, jsonEntries_eq_map]
    exact .permutation (hperm.map memberEntry)
  | item before after _ ih =>
    simp only [Json.toValue, jsonItems_eq_map, List.map_append, List.map_cons]
    exact .item _ _ ih
  | member before key after _ ih =>
    simp only [Json.toValue, jsonEntries_eq_map, List.map_append, List.map_cons]
    exact .entry _ _ _ ih

end EntityCompiler.Value
