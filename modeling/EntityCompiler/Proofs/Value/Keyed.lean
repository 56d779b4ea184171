import EntityCompiler.Proofs.Outcome
import EntityCompiler.Proofs.Value.Plain

/-!
# Distinct keys in plain forms

No object in a plain form has a key twice, and neither has one in the JSON value that a value without
repeated keys stands for.  Keys need not be texts for that: every dictionary has distinct keys.
-/

namespace EntityCompiler.Value

/-! ## Plain forms -/

/-- The texts of distinct textual keys are distinct. -/
theorem nodup_plainMember {entries : List (Value × Value)} (h : Keyed (.dict entries)) :
    ((entries.map plainMember).map (·.1)).Nodup := by
  obtain ⟨hkeys, hentries⟩ := keyed_dict.mp h
  rw [List.map_map]
  refine List.Nodup.of_map Value.text ?_
  have hsame : (entries.map ((·.1) ∘ plainMember)).map Value.text = entries.map (·.1) := by
    rw [List.map_map]
    refine List.map_congr_left fun entry hentry ↦ ?_
    obtain ⟨⟨name, hname⟩, -⟩ := hentries entry hentry
    simp [plainMember, hname, keyText]
  rw [hsame]
  exact hkeys

theorem plain_dict_of_keyed {entries : List (Value × Value)} (h : Keyed (.dict entries)) :
    plain (.dict entries) = .object (entries.map plainMember) :=
  plain_dict (nodup_plainMember h)

theorem keyed_plainType (t : ColumnType) : (plainType t).Keyed := by
  induction t with
  | primitive p => trivial
  | arrayOf element ih =>
    rw [plainType, Json.keyed_object]
    simpa using ih

/-- A key that is there keeps its place, and another one goes to the end. -/
theorem map_fst_putMember {α : Type} (key : String) (value : α) (members : List (String × α)) :
    (Json.putMember key value members).map (·.1) =
      if key ∈ members.map (·.1) then members.map (·.1) else members.map (·.1) ++ [key] := by
  induction members with
  | nil => rfl
  | cons member members ih =>
    obtain ⟨label, found⟩ := member
    by_cases hlabel : label = key
    · simp [Json.putMember, hlabel]
    · have hkeys : ((label, found) :: members).map (·.1) = label :: members.map (·.1) := rfl
      rw [Json.putMember, if_neg hlabel, List.map_cons, ih, hkeys]
      by_cases hmem : key ∈ members.map (·.1)
      · rw [if_pos hmem, if_pos (List.mem_cons_of_mem _ hmem)]
      · rw [if_neg hmem, if_neg (List.not_mem_cons_of_ne_of_not_mem (Ne.symm hlabel) hmem)]
        rfl

theorem nodup_putMember {α : Type} {key : String} {value : α} {members : List (String × α)}
    (h : (members.map (·.1)).Nodup) : ((Json.putMember key value members).map (·.1)).Nodup := by
  rw [map_fst_putMember]
  by_cases hmem : key ∈ members.map (·.1)
  · rwa [if_pos hmem]
  · rw [if_neg hmem]
    exact List.nodup_append.mpr ⟨h, List.nodup_singleton key, fun name hname other hother ↦ by
      rw [List.mem_singleton.mp hother]
      exact fun hkey ↦ hmem (hkey ▸ hname)⟩

theorem forall_mem_putMember {P : Json → Prop} {key : String} {value : Json}
    {members : List (String × Json)} (hvalue : P value) (h : ∀ member ∈ members, P member.2) :
    ∀ member ∈ Json.putMember key value members, P member.2 := by
  induction members with
  | nil => exact List.forall_mem_singleton.mpr hvalue
  | cons member members ih =>
    obtain ⟨label, found⟩ := member
    rw [List.forall_mem_cons] at h
    rw [Json.putMember]
    split
    · exact List.forall_mem_cons.mpr ⟨hvalue, h.2⟩
    · exact List.forall_mem_cons.mpr ⟨h.1, ih h.2⟩

theorem nodup_plainEntries {members : List (String × Json)} {entries : List (Value × Value)}
    (h : (members.map (·.1)).Nodup) : ((plainEntries members entries).map (·.1)).Nodup := by
  induction entries generalizing members with
  | nil => exact h
  | cons entry entries ih => exact ih (nodup_putMember h)

/-- What holds of the members that are there and of the plain forms of all values holds of the members
of the plain form. -/
theorem forall_mem_plainEntries {P : Json → Prop} {members : List (String × Json)}
    {entries : List (Value × Value)} (hmembers : ∀ member ∈ members, P member.2)
    (hentries : ∀ entry ∈ entries, P entry.2.plain) :
    ∀ member ∈ plainEntries members entries, P member.2 := by
  induction entries generalizing members with
  | nil => exact hmembers
  | cons entry entries ih =>
    rw [List.forall_mem_cons] at hentries
    exact ih (forall_mem_putMember hentries.1 hmembers) hentries.2

mutual

/-- No object in a plain form has a key twice. -/
theorem keyed_plain : (v : Value) → v.plain.Keyed
  | .null => trivial
  | .bool _ => trivial
  | .int _ => trivial
  | .float (.finite _) => trivial
  | .float (.infinity _) => trivial
  | .float .nan => trivial
  | .text _ => trivial
  | .bytes _ => trivial
  | .moment _ => trivial
  | .columnType t => keyed_plainType t
  | .list items => by
    rw [plain, plainItems_eq_map, Json.keyed_array, List.forall_mem_map]
    exact forall_mem_keyed_plain items
  | .tuple items => by
    rw [plain, plainItems_eq_map, Json.keyed_array, List.forall_mem_map]
    exact forall_mem_keyed_plain items
  | .collection _ items => by
    rw [plain, plainItems_eq_map, Json.keyed_array, List.forall_mem_map]
    exact forall_mem_keyed_plain items
  | .dict entries => by
    rw [plain, Json.keyed_object]
    exact ⟨nodup_plainEntries List.nodup_nil, forall_mem_plainEntries
      (fun _ hmem ↦ absurd hmem List.not_mem_nil) (forall_mem_keyed_plain_entries entries)⟩

theorem forall_mem_keyed_plain : (items : List Value) → ∀ item ∈ items, item.plain.Keyed
  | [] => fun _ hmem ↦ absurd hmem List.not_mem_nil
  | item :: items => List.forall_mem_cons.mpr ⟨keyed_plain item, forall_mem_keyed_plain items⟩

theorem forall_mem_keyed_plain_entries : (entries : List (Value × Value)) →
    ∀ entry ∈ entries, entry.2.plain.Keyed
  | [] => fun _ hmem ↦ absurd hmem List.not_mem_nil
  | (_, value) :: entries =>
    List.forall_mem_cons.mpr ⟨keyed_plain value, forall_mem_keyed_plain_entries entries⟩

end

/-! ## Values without repeated keys -/

mutual

/-- Whether no dictionary in a value has a key twice, be it in two spellings. -/
def DistinctKeys : Value → Prop
  | .list items => ItemsDistinctKeys items
  | .tuple items => ItemsDistinctKeys items
  | .collection _ items => ItemsDistinctKeys items
  | .dict entries => (entries.map (·.1.asText)).Nodup ∧ EntriesDistinctKeys entries
  | _ => True

def ItemsDistinctKeys : List Value → Prop
  | [] => True
  | item :: rest => DistinctKeys item ∧ ItemsDistinctKeys rest

def EntriesDistinctKeys : List (Value × Value) → Prop
  | [] => True
  | (_, value) :: rest => DistinctKeys value ∧ EntriesDistinctKeys rest

end

theorem itemsDistinctKeys_iff {items : List Value} :
    ItemsDistinctKeys items ↔ ∀ item ∈ items, DistinctKeys item := by
  induction items with
  | nil => simp [ItemsDistinctKeys]
  | cons item items ih => rw [ItemsDistinctKeys, ih, List.forall_mem_cons]

theorem entriesDistinctKeys_iff {entries : List (Value × Value)} :
    EntriesDistinctKeys entries ↔ ∀ entry ∈ entries, DistinctKeys entry.2 := by
  induction entries with
  | nil => simp [EntriesDistinctKeys]
  | cons entry entries ih => rw [EntriesDistinctKeys, ih, List.forall_mem_cons]

theorem distinctKeys_list {items : List Value} :
    DistinctKeys (.list items) ↔ ∀ item ∈ items, DistinctKeys item := by
  rw [DistinctKeys, itemsDistinctKeys_iff]

theorem distinctKeys_tuple {items : List Value} :
    DistinctKeys (.tuple items) ↔ ∀ item ∈ items, DistinctKeys item := by
  rw [DistinctKeys, itemsDistinctKeys_iff]

theorem distinctKeys_dict {entries : List (Value × Value)} : DistinctKeys (.dict entries) ↔
    (entries.map (·.1.asText)).Nodup ∧ ∀ entry ∈ entries, DistinctKeys entry.2 := by
  rw [DistinctKeys, entriesDistinctKeys_iff]

theorem map_asText_of_texts {entries : List (Value × Value)}
    (h : ∀ entry ∈ entries, ∃ name, entry.1 = .text name) :
    entries.map (·.1.asText) = entries.map (·.1) :=
  List.map_congr_left fun entry hentry ↦ by
    obtain ⟨name, hname⟩ := h entry hentry
    rw [hname, asText_text]

mutual

/-- Distinct textual keys are distinct keys. -/
theorem Keyed.distinctKeys (v : Value) (h : v.Keyed) : v.DistinctKeys := by
  cases v with
  | list items => exact ItemsKeyed.distinctKeys items h
  | tuple items => exact ItemsKeyed.distinctKeys items h
  | collection kind items => exact ItemsKeyed.distinctKeys items h
  | dict entries =>
    refine ⟨?_, EntriesKeyed.distinctKeys entries h.2⟩
    rw [map_asText_of_texts fun entry hentry ↦ ((keyed_dict.mp h).2 entry hentry).1]
    exact h.1
  | _ => trivial

theorem ItemsKeyed.distinctKeys (items : List Value) (h : ItemsKeyed items) :
    ItemsDistinctKeys items := by
  cases items with
  | nil => trivial
  | cons item items => exact ⟨Keyed.distinctKeys item h.1, ItemsKeyed.distinctKeys items h.2⟩

theorem EntriesKeyed.distinctKeys (entries : List (Value × Value)) (h : EntriesKeyed entries) :
    EntriesDistinctKeys entries := by
  cases entries with
  | nil => trivial
  | cons entry entries =>
    exact ⟨Keyed.distinctKeys entry.2 h.2.1, EntriesKeyed.distinctKeys entries h.2.2⟩

end

/-! ## JSON values -/

theorem map_asText_of_entriesToJson? {entries : List (Value × Value)}
    {members : List (String × Json)} (h : entriesToJson? entries = some members) :
    entries.map (·.1.asText) = (members.map (·.1)).map Value.text := by
  induction entries generalizing members with
  | nil =>
    obtain rfl := Option.some.inj h
    rfl
  | cons entry entries ih =>
    obtain ⟨name, hname, hrest⟩ := Option.bind_eq_some_iff.mp h
    obtain ⟨value, -, hrest⟩ := Option.bind_eq_some_iff.mp hrest
    obtain ⟨others, hothers, hsome⟩ := Option.bind_eq_some_iff.mp hrest
    obtain rfl := Option.some.inj hsome
    rw [List.map_cons, ih hothers, List.map_cons, List.map_cons, asText_of_text? hname]

mutual

/-- The JSON value that a value stands for keeps keys distinct. -/
theorem keyed_of_toJson? (v : Value) {value : Json} (h : v.toJson? = some value)
    (hv : v.DistinctKeys) : value.Keyed := by
  cases v with
  | float x =>
    cases x with
    | finite x =>
      obtain rfl := Option.some.inj h
      trivial
    | _ => simp [toJson?] at h
  | list items =>
    obtain ⟨values, hvalues, rfl⟩ := Option.map_eq_some_iff.mp h
    exact itemsKeyed_of_toJson? items hvalues hv
  | tuple items =>
    obtain ⟨values, hvalues, rfl⟩ := Option.map_eq_some_iff.mp h
    exact itemsKeyed_of_toJson? items hvalues hv
  | dict entries =>
    obtain ⟨members, hmembers, rfl⟩ := Option.map_eq_some_iff.mp h
    refine ⟨List.Nodup.of_map Value.text ?_, membersKeyed_of_toJson? entries hmembers hv.2⟩
    rw [← map_asText_of_entriesToJson? hmembers]
    exact hv.1
  | bytes data => simp [toJson?] at h
  | moment t => simp [toJson?] at h
  | collection kind items => simp [toJson?] at h
  | columnType t =>
    cases t with
    | primitive p =>
      obtain rfl := Option.some.inj h
      trivial
    | arrayOf element => simp [toJson?] at h
  | _ =>
    obtain rfl := Option.some.inj h
    trivial

theorem itemsKeyed_of_toJson? (items : List Value) {values : List Json}
    (h : itemsToJson? items = some values) (hitems : ItemsDistinctKeys items) :
    Json.ItemsKeyed values := by
  cases items with
  | nil =>
    obtain rfl := Option.some.inj h
    trivial
  | cons item items =>
    obtain ⟨value, hvalue, hrest⟩ := Option.bind_eq_some_iff.mp h
    obtain ⟨values, hvalues, hsome⟩ := Option.bind_eq_some_iff.mp hrest
    obtain rfl := Option.some.inj hsome
    exact ⟨keyed_of_toJson? item hvalue hitems.1, itemsKeyed_of_toJson? items hvalues hitems.2⟩

theorem membersKeyed_of_toJson? (entries : List (Value × Value)) {members : List (String × Json)}
    (h : entriesToJson? entries = some members) (hentries : EntriesDistinctKeys entries) :
    Json.MembersKeyed members := by
  cases entries with
  | nil =>
    obtain rfl := Option.some.inj h
    trivial
  | cons entry entries =>
    obtain ⟨name, -, hrest⟩ := Option.bind_eq_some_iff.mp h
    obtain ⟨value, hvalue, hrest⟩ := Option.bind_eq_some_iff.mp hrest
    obtain ⟨members, hmembers, hsome⟩ := Option.bind_eq_some_iff.mp hrest
    obtain rfl := Option.some.inj hsome
    exact ⟨keyed_of_toJson? entry.2 hvalue hentries.1,
      membersKeyed_of_toJson? entries hmembers hentries.2⟩

end

end EntityCompiler.Value
