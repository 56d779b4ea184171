import EntityCompiler.Proofs.Outcome
import EntityCompiler.Proofs.Value.Depth

/-!
# Spellings of literals

The same literal may be written with lists or tuples and with the entries of its dictionaries in any
order.  Neither changes its plain form, its depth or the JSON value that it stands for by more than the
order of members.
-/

namespace EntityCompiler.Value

/-- One change in the spelling of a literal: a list becomes a tuple or the entries of a dictionary
change places, at any depth. -/
inductive LiteralStep : Value → Value → Prop
  | tuple (items : List Value) : LiteralStep (.list items) (.tuple items)
  | permutation {entries others : List (Value × Value)} :
      entries.Perm others → LiteralStep (.dict entries) (.dict others)
  | item {v w : Value} (before after : List Value) :
      LiteralStep v w → LiteralStep (.list (before ++ v :: after)) (.list (before ++ w :: after))
  | component {v w : Value} (before after : List Value) :
      LiteralStep v w → LiteralStep (.tuple (before ++ v :: after)) (.tuple (before ++ w :: after))
  | entry {v w : Value} (before : List (Value × Value)) (key : Value)
      (after : List (Value × Value)) : LiteralStep v w →
      LiteralStep (.dict (before ++ (key, v) :: after)) (.dict (before ++ (key, w) :: after))

theorem LiteralStep.ne_null {v w : Value} (h : LiteralStep v w) : v ≠ .null ∧ w ≠ .null := by
  cases h <;> simp

/-! ## Without tuples -/

theorem untupledItems_eq_map (items : List Value) : untupledItems items = items.map untupled := by
  induction items with
  | nil => rfl
  | cons item items ih => rw [untupledItems, ih, List.map_cons]

theorem reordered_untupled_of_step {v w : Value} (h : LiteralStep v w) :
    Reordered v.untupled w.untupled := by
  induction h with
  | tuple items => exact .refl _
  | permutation hperm =>
    rw [untupled, untupled, untupledEntries_eq_map, untupledEntries_eq_map]
    exact .permutation (hperm.map _)
  | item before after _ ih =>
    simp only [untupled, untupledItems_eq_map, List.map_append, List.map_cons]
    exact .item _ _ ih
  | component before after _ ih =>
    simp only [untupled, untupledItems_eq_map, List.map_append, List.map_cons]
    exact .item _ _ ih
  | entry before key after _ ih =>
    simp only [untupled, untupledEntries_eq_map, List.map_append, List.map_cons]
    exact .entry _ _ _ ih

/-! ## Plain forms -/

/-- Spellings without repeated keys stay so. -/
theorem keyed_iff_of_step {v w : Value} (h : LiteralStep v w) : Keyed v ↔ Keyed w := by
  induction h with
  | tuple items => rw [keyed_list, keyed_tuple]
  | permutation hperm =>
    rw [keyed_dict, keyed_dict, (hperm.map (·.1)).nodup_iff]
    simp only [hperm.mem_iff]
  | item before after _ ih =>
    simp only [keyed_list, List.forall_mem_append, List.forall_mem_cons, ih]
  | component before after _ ih =>
    simp only [keyed_tuple, List.forall_mem_append, List.forall_mem_cons, ih]
  | entry before key after _ ih =>
    simp only [keyed_dict, List.forall_mem_append, List.forall_mem_cons, ih, List.map_append,
      List.map_cons]

theorem reordered_plain_of_step {v w : Value} (h : LiteralStep v w) (hv : v.Keyed) :
    v.plain.Reordered w.plain := by
  induction h with
  | tuple items => exact .refl _
  | permutation hperm =>
    rw [plain_dict_of_keyed hv, plain_dict_of_keyed ((keyed_iff_of_step (.permutation hperm)).mp hv)]
    exact .permutation (hperm.map _)
  | item before after _ ih =>
    have hitem := ih (keyed_list.mp hv _ (List.mem_append_right _ List.mem_cons_self))
    simp only [plain, plainItems_eq_map, List.map_append, List.map_cons]
    exact .item _ _ hitem
  | component before after _ ih =>
    have hitem := ih (keyed_tuple.mp hv _ (List.mem_append_right _ List.mem_cons_self))
    simp only [plain, plainItems_eq_map, List.map_append, List.map_cons]
    exact .item _ _ hitem
  | entry before key after hstep ih =>
    have hvalue := ih (keyed_middle hv)
    rw [plain_dict_of_keyed hv,
      plain_dict_of_keyed ((keyed_iff_of_step (.entry before key after hstep)).mp hv)]
    simp only [List.map_append, List.map_cons]
    exact .member _ _ _ hvalue

/-! ## JSON values -/

theorem itemsToJson?_eq_mapM (items : List Value) : itemsToJson? items = items.mapM toJson? := by
  induction items with
  | nil => rfl
  | cons item items ih => rw [itemsToJson?, ih, List.mapM_cons]

/-- The member that an entry stands for. -/
def entryToJson? (entry : Value × Value) : Option (String × Json) :=
  entry.1.text?.bind fun key ↦ entry.2.toJson?.map (key, ·)

theorem entriesToJson?_eq_mapM (entries : List (Value × Value)) :
    entriesToJson? entries = entries.mapM entryToJson? := by
  induction entries with
  | nil => rfl
  | cons entry entries ih =>
    obtain ⟨key, value⟩ := entry
    rw [List.mapM_cons, entriesToJson?, ih, entryToJson?]
    cases key.text? <;> cases value.toJson? <;> rfl

theorem rel_toJson?_of_step {v w : Value} (h : LiteralStep v w) :
    Option.Rel Json.Reordered v.toJson? w.toJson? := by
  have hrefl (v : Value) : Option.Rel Json.Reordered v.toJson? v.toJson? :=
    rel_of_eq Json.Reordered.refl rfl
  induction h with
  | tuple items => exact hrefl (.list items)
  | permutation hperm =>
    rw [toJson?, toJson?, entriesToJson?_eq_mapM, entriesToJson?_eq_mapM]
    exact rel_map (fun _ _ hmembers ↦ .permutation hmembers) (rel_perm_mapM hperm)
  | item before after _ ih =>
    rw [toJson?, toJson?, itemsToJson?_eq_mapM, itemsToJson?_eq_mapM]
    refine rel_map (fun _ _ ↦ Json.Reordered.array) (rel_mapM ?_)
    exact forall₂_replace hrefl before after ih
  | component before after _ ih =>
    rw [toJson?, toJson?, itemsToJson?_eq_mapM, itemsToJson?_eq_mapM]
    refine rel_map (fun _ _ ↦ Json.Reordered.array) (rel_mapM ?_)
    exact forall₂_replace hrefl before after ih
  | entry before key after _ ih =>
    rw [toJson?, toJson?, entriesToJson?_eq_mapM, entriesToJson?_eq_mapM]
    have hentry (entry : Value × Value) :
        Option.Rel Json.MemberReordered (entryToJson? entry) (entryToJson? entry) :=
      rel_of_eq (fun member ↦ ⟨rfl, .refl _⟩) rfl
    refine rel_map (fun _ _ ↦ Json.Reordered.object) (rel_mapM ?_)
    refine forall₂_replace hentry before after ?_
    rw [entryToJson?, entryToJson?]
    cases key.text? with
    | some name => exact rel_map (fun _ _ hvalue ↦ ⟨rfl, hvalue⟩) ih
    | none => exact .none

end EntityCompiler.Value
