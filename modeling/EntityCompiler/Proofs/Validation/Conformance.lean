import EntityCompiler.Proofs.Validation.Defaults
import EntityCompiler.Proofs.Value.Depth

/-!
# Conformance

What it means that a value conforms to a node, said without the check: a relation with one clause for
each kind of value that a primitive admits and one for arrays.  The check of a node accepts exactly the
values that conform and whose JSON values have no more levels than are looked into.
-/

namespace EntityCompiler.Validation

open Checked

/-! ## Conforming values -/

/-- The values that JSON has, with numbers that need not be finite: lists but no other collections, no
moments, no bytes but those of the names that keys stand for. -/
inductive JsonLike : Value → Prop
  | null : JsonLike .null
  | bool (b : Bool) : JsonLike (.bool b)
  | int (n : Int) : JsonLike (.int n)
  | float (x : Binary64) : JsonLike (.float x)
  | text {v : Value} {s : String} : v.text? = some s → JsonLike v
  | list {items : List Value} : (∀ item ∈ items, JsonLike item) → JsonLike (.list items)
  | dict {entries : List (Value × Value)} : (∀ entry ∈ entries, ∃ name, entry.1.name? = some name) →
      (∀ entry ∈ entries, JsonLike entry.2) → JsonLike (.dict entries)

/-- The values that conform to a node. -/
inductive Node.Conforms : Node → Value → Prop
  | string {v : Value} {s : String} : v.text? = some s → Conforms (.scalar .string) v
  | int (n : Int) : Conforms (.scalar .number) (.int n)
  | float (x : Binary64) : Conforms (.scalar .number) (.float x)
  | integer (n : Int) : Conforms (.scalar .integer) (.int n)
  | boolean (b : Bool) : Conforms (.scalar .boolean) (.bool b)
  | moment (t : Moment) : Conforms (.scalar .date) (.moment t)
  | instant {s : String} {t : Moment} : Instant.read s = .ok t → Conforms (.scalar .date) (.text s)
  | json {v : Value} : JsonLike v → Conforms (.scalar .json) v
  | sequence {element : Node} {v : Value} {items : List Value} : v.elements? = some items →
      (∀ item ∈ items, Conforms element item) → Conforms (.sequence element) v

/-- Whether a value conforms to a field: null where it is allowed, any other value by its node. -/
def Field.Conforms (f : Field) (v : Value) : Prop :=
  (v = .null ∧ f.nullable = true) ∨ (v ≠ .null ∧ f.node.Conforms v)

/-- Whether the JSON values that a node finds in a value have no more levels than are looked into. -/
def Node.fits : Node → Value → Bool
  | .scalar .json, v => v.depth ≤ depthLimit
  | .scalar _, _ => true
  | .sequence element, v => (v.elements?.getD []).all element.fits

theorem fits_nested (depth : Nat) :
    (Node.scalar .json).fits (nested depth) = true ↔ depth + 1 ≤ depthLimit := by
  rw [Node.fits, depth_nested]
  exact decide_eq_true_iff

/-! ## JSON values -/

theorem jsonLike_list {items : List Value} :
    JsonLike (.list items) ↔ ∀ item ∈ items, JsonLike item :=
  ⟨fun h ↦ by cases h with | text htext => cases htext | list hitems => exact hitems, .list⟩

theorem jsonLike_dict {entries : List (Value × Value)} : JsonLike (.dict entries) ↔
    ∀ entry ∈ entries, (∃ name, entry.1.name? = some name) ∧ JsonLike entry.2 := by
  constructor
  · intro h
    cases h with
    | text htext => cases htext
    | dict hkeys hvalues => exact fun entry hentry ↦ ⟨hkeys entry hentry, hvalues entry hentry⟩
  · intro h
    exact .dict (fun entry hentry ↦ (h entry hentry).1) fun entry hentry ↦ (h entry hentry).2

mutual

/-- A value has no issues as a JSON value exactly when it is one with few enough levels. -/
theorem jsonIssues_eq_nil_iff {levels : Nat} : (v : Value) →
    (jsonIssues levels v = [] ↔ JsonLike v ∧ v.depth ≤ levels)
  | .null => by cases levels <;> simp [jsonIssues, Value.depth, JsonLike.null]
  | .bool b => by cases levels <;> simp [jsonIssues, Value.depth, JsonLike.bool b]
  | .int n => by cases levels <;> simp [jsonIssues, Value.depth, JsonLike.int n]
  | .float x => by cases levels <;> simp [jsonIssues, Value.depth, JsonLike.float x]
  | .text s => by
    cases levels <;> simp [jsonIssues, Value.depth, JsonLike.text (Value.text?_text s)]
  | .columnType (.primitive p) => by
    cases levels <;> simp [jsonIssues, Value.depth, JsonLike.text (Value.text?_primitive p)]
  | .columnType (.arrayOf element) => by
    have hnot : ¬JsonLike (.columnType (.arrayOf element)) := nofun
    cases levels <;> simp [jsonIssues, hnot]
  | .bytes data => by
    have hnot : ¬JsonLike (.bytes data) := nofun
    cases levels <;> simp [jsonIssues, hnot]
  | .moment t => by
    have hnot : ¬JsonLike (.moment t) := nofun
    cases levels <;> simp [jsonIssues, hnot]
  | .tuple items => by
    have hnot : ¬JsonLike (.tuple items) := nofun
    cases levels <;> simp [jsonIssues, hnot]
  | .collection kind items => by
    have hnot : ¬JsonLike (.collection kind items) := nofun
    cases levels <;> simp [jsonIssues, hnot]
  | .list items => by
    cases levels with
    | zero => simp [jsonIssues, Value.depth]
    | succ levels =>
      rw [jsonIssues, jsonItemIssues_eq_nil_iff_jsonLike items, jsonLike_list, Value.depth,
        Nat.succ_le_succ_iff]
  | .dict entries => by
    cases levels with
    | zero => simp [jsonIssues, Value.depth]
    | succ levels =>
      rw [jsonIssues, jsonEntryIssues_eq_nil_iff_jsonLike entries, jsonLike_dict, Value.depth,
        Nat.succ_le_succ_iff]

theorem jsonItemIssues_eq_nil_iff_jsonLike {levels index : Nat} : (items : List Value) →
    (jsonItemIssues levels index items = [] ↔
      (∀ item ∈ items, JsonLike item) ∧ Value.itemsDepth items ≤ levels)
  | [] => by simp [jsonItemIssues, Value.itemsDepth]
  | item :: items => by
    rw [jsonItemIssues, List.append_eq_nil_iff, issuesBelow_eq_nil_iff, jsonIssues_eq_nil_iff item,
      jsonItemIssues_eq_nil_iff_jsonLike items, List.forall_mem_cons, Value.itemsDepth, Nat.max_le,
      and_and_and_comm]

theorem jsonEntryIssues_eq_nil_iff_jsonLike {levels : Nat} : (entries : List (Value × Value)) →
    (jsonEntryIssues levels entries = [] ↔
      (∀ entry ∈ entries, (∃ name, entry.1.name? = some name) ∧ JsonLike entry.2) ∧
        Value.entriesDepth entries ≤ levels)
  | [] => by simp [jsonEntryIssues, Value.entriesDepth]
  | (key, value) :: entries => by
    rw [List.forall_mem_cons, Value.entriesDepth, Nat.max_le, jsonEntryIssues,
      List.append_eq_nil_iff, List.append_eq_nil_iff, issuesBelow_eq_nil_iff,
      issuesBelow_eq_nil_iff, Shape.issues_name_eq_nil_iff, jsonIssues_eq_nil_iff value,
      jsonEntryIssues_eq_nil_iff_jsonLike entries]
    tauto

end

/-! ## Forms of JSON values -/

theorem jsonFormItems_eq_map (items : List Value) : jsonFormItems items = items.map jsonForm := by
  induction items with
  | nil => rfl
  | cons item items ih => rw [jsonFormItems, ih, List.map_cons]

theorem jsonFormMembers_eq_map (entries : List (Value × Value)) :
    jsonFormMembers entries = entries.map fun entry ↦ (entry.1.name?.getD "", jsonForm entry.2) := by
  induction entries with
  | nil => rfl
  | cons entry entries ih => rw [jsonFormMembers, ih, List.map_cons]

/-- The form of a dictionary has the forms of values in it under textual keys. -/
theorem exists_fields_of_jsonForm {P : Value → Prop} {entries : List (Value × Value)}
    (h : ∀ entry ∈ entries, P (jsonForm entry.2)) :
    ∃ fields, jsonForm (.dict entries) = .ofFields fields ∧ ∀ field ∈ fields, P field.2 := by
  refine ⟨_, by rw [jsonForm], fun field hfield ↦ ?_⟩
  have hmem := Value.mem_of_mem_membersUnder hfield
  rw [jsonFormMembers_eq_map] at hmem
  obtain ⟨entry, hentry, rfl⟩ := List.mem_map.mp hmem
  exact h entry hentry

theorem jsonForm_ofFields {fields : List (String × Value)}
    (h : ∀ field ∈ fields, jsonForm field.2 = field.2) :
    jsonForm (.ofFields fields) = .ofFields fields := by
  rw [Value.ofFields, jsonForm, Shape.membersUnder_of_texts]
  · rw [jsonFormMembers_eq_map, List.map_map]
    congr 1
    refine (List.map_congr_left fun field hfield ↦ ?_).trans (List.map_id _)
    simp [h field hfield, Value.name?]
  · rw [List.map_map]
    exact List.forall_mem_map.mpr fun field _ ↦ ⟨field.1, rfl⟩

/-- The form of a JSON value is one with no more levels that has its form. -/
theorem JsonLike.form {v : Value} (h : JsonLike v) :
    JsonLike (jsonForm v) ∧ jsonForm (jsonForm v) = jsonForm v ∧ (jsonForm v).depth ≤ v.depth := by
  induction h with
  | text htext =>
    rcases Value.text?_eq_some_iff.mp htext with rfl | ⟨p, rfl, rfl⟩
    · exact ⟨.text htext, rfl, le_rfl⟩
    · exact ⟨.text (Value.text?_text _), rfl, le_rfl⟩
  | @list items _ ih =>
    rw [jsonForm, jsonFormItems_eq_map]
    refine ⟨.list (List.forall_mem_map.mpr fun item hmem ↦ (ih item hmem).1), ?_, ?_⟩
    · rw [jsonForm, jsonFormItems_eq_map, List.map_map]
      exact congrArg Value.list (List.map_congr_left fun item hmem ↦ (ih item hmem).2.1)
    · rw [Value.depth, Value.depth, Nat.add_le_add_iff_right, Value.itemsDepth_le_iff,
        List.forall_mem_map]
      exact fun item hmem ↦ (ih item hmem).2.2.trans (Value.itemsDepth_le_iff.mp le_rfl item hmem)
  | @dict entries _ _ ih =>
    obtain ⟨fields, hfields, hall⟩ := exists_fields_of_jsonForm
      (P := fun w ↦ JsonLike w ∧ jsonForm w = w ∧ w.depth ≤ Value.entriesDepth entries)
      fun entry hmem ↦ ⟨(ih entry hmem).1, (ih entry hmem).2.1,
        (ih entry hmem).2.2.trans (Value.entriesDepth_le_iff.mp le_rfl entry hmem)⟩
    rw [hfields]
    refine ⟨.dict ?_ ?_, jsonForm_ofFields fun field hmem ↦ (hall field hmem).2.1, ?_⟩
    · exact List.forall_mem_map.mpr fun field _ ↦ ⟨field.1, rfl⟩
    · exact List.forall_mem_map.mpr fun field hmem ↦ (hall field hmem).1
    · rw [Value.ofFields, Value.depth, Value.depth, Nat.add_le_add_iff_right,
        Value.entriesDepth_le_iff, List.forall_mem_map]
      exact fun field hmem ↦ (hall field hmem).2.2
  | null => exact ⟨.null, rfl, le_rfl⟩
  | bool b => exact ⟨.bool b, rfl, le_rfl⟩
  | int n => exact ⟨.int n, rfl, le_rfl⟩
  | float x => exact ⟨.float x, rfl, le_rfl⟩

/-- A JSON value is accepted in its form. -/
theorem checkJson_eq_accepted_iff {v w : Value} :
    checkJson v = .accepted w ↔ jsonForm v = w ∧ JsonLike v ∧ v.depth ≤ depthLimit := by
  rw [checkJson, ← jsonIssues_eq_nil_iff v]
  cases jsonIssues depthLimit v <;> simp

/-! ## Primitives -/

/-- The values that the check of a primitive accepts, each with its outcome: the moment that the text of
a date denotes, the form of a JSON value, and the value itself of anything else. -/
inductive Checks : Primitive → Value → Value → Prop
  | string {v : Value} {s : String} : v.text? = some s → Checks .string v (.text s)
  | int (n : Int) : Checks .number (.int n) (.int n)
  | float (x : Binary64) : Checks .number (.float x) (.float x)
  | integer (n : Int) : Checks .integer (.int n) (.int n)
  | boolean (b : Bool) : Checks .boolean (.bool b) (.bool b)
  | moment (t : Moment) : Checks .date (.moment t) (.moment t)
  | instant {s : String} {t : Moment} : Instant.read s = .ok t → Checks .date (.text s) (.moment t)
  | json {v : Value} : JsonLike v → v.depth ≤ depthLimit → Checks .json v (jsonForm v)

theorem checks_of_checkScalar {p : Primitive} {v w : Value} (h : checkScalar p v = .accepted w) :
    Checks p v w := by
  cases p with
  | json =>
    obtain ⟨rfl, hlike, hlevels⟩ := checkJson_eq_accepted_iff.mp h
    exact .json hlike hlevels
  | date =>
    cases v with
    | moment t => exact accepted.inj h ▸ .moment t
    | text s =>
      cases hread : Instant.read s with
      | ok t =>
        rw [checkScalar, checkDate, Value.toMoment, hread] at h
        exact accepted.inj h ▸ .instant hread
      | error refusal => simp [checkScalar, checkDate, Value.toMoment, hread, fail] at h
    | columnType t => cases t <;> simp [checkScalar, checkDate, Value.toMoment, fail] at h
    | _ => simp [checkScalar, checkDate, Value.toMoment, fail] at h
  | number =>
    cases v with
    | int n => exact accepted.inj h ▸ .int n
    | float x => exact accepted.inj h ▸ .float x
    | _ => cases h
  | string =>
    obtain ⟨s, htext, rfl⟩ := map_eq_accepted_iff.mp h
    exact .string (Shape.text_eq_accepted_iff.mp htext)
  | integer =>
    cases v with
    | int n => exact accepted.inj h ▸ .integer n
    | _ => cases h
  | boolean =>
    cases v with
    | bool b => exact accepted.inj h ▸ .boolean b
    | _ => cases h

/-- All that the check of a primitive accepts. -/
theorem checkScalar_eq_accepted_iff {p : Primitive} {v w : Value} :
    checkScalar p v = .accepted w ↔ Checks p v w := by
  refine ⟨checks_of_checkScalar, fun h ↦ ?_⟩
  cases h with
  | instant hread => rw [checkScalar, checkDate, Value.toMoment, hread]
  | json hlike hlevels => exact checkJson_eq_accepted_iff.mpr ⟨rfl, hlike, hlevels⟩
  | string htext => exact map_eq_accepted_iff.mpr ⟨_, Shape.text_eq_accepted_iff.mpr htext, rfl⟩
  | _ => rfl

/-! ## Nodes and fields -/

/-- The check of a primitive accepts exactly the values that conform and fit. -/
theorem exists_checkScalar_iff {p : Primitive} {v : Value} :
    (∃ w, checkScalar p v = .accepted w) ↔
      (Node.scalar p).Conforms v ∧ (Node.scalar p).fits v = true := by
  simp only [checkScalar_eq_accepted_iff]
  constructor
  · rintro ⟨w, hw⟩
    cases hw with
    | string htext => exact ⟨.string htext, rfl⟩
    | int n => exact ⟨.int n, rfl⟩
    | float x => exact ⟨.float x, rfl⟩
    | integer n => exact ⟨.integer n, rfl⟩
    | boolean b => exact ⟨.boolean b, rfl⟩
    | moment t => exact ⟨.moment t, rfl⟩
    | instant hread => exact ⟨.instant hread, rfl⟩
    | json hlike hlevels => exact ⟨.json hlike, decide_eq_true hlevels⟩
  · rintro ⟨hconforms, hfits⟩
    cases hconforms with
    | string htext => exact ⟨_, .string htext⟩
    | int n => exact ⟨_, .int n⟩
    | float x => exact ⟨_, .float x⟩
    | integer n => exact ⟨_, .integer n⟩
    | boolean b => exact ⟨_, .boolean b⟩
    | moment t => exact ⟨_, .moment t⟩
    | instant hread => exact ⟨_, .instant hread⟩
    | json hlike => exact ⟨_, .json hlike (of_decide_eq_true hfits)⟩

theorem conforms_sequence_iff {element : Node} {v : Value} :
    (Node.sequence element).Conforms v ↔
      ∃ items, v.elements? = some items ∧ ∀ item ∈ items, element.Conforms item := by
  constructor
  · intro h
    cases h with
    | sequence hitems hall => exact ⟨_, hitems, hall⟩
  · rintro ⟨items, hitems, hall⟩
    exact .sequence hitems hall

/-- The check of a node accepts exactly the values that conform and fit. -/
theorem exists_check_iff {node : Node} {v : Value} :
    (∃ w, node.check v = .accepted w) ↔ node.Conforms v ∧ node.fits v = true := by
  induction node generalizing v with
  | scalar p => exact exists_checkScalar_iff
  | sequence element ih =>
    have hcheck : (∃ w, (Node.sequence element).check v = .accepted w) ↔
        ∃ items, v.elements? = some items ∧ ∀ item ∈ items, ∃ w, element.check item = .accepted w := by
      simp only [Node.check, map_eq_accepted_iff, Shape.list_eq_accepted_iff,
        ← exists_forall₂_iff]
      constructor
      · rintro ⟨_, values, ⟨items, hitems, hvalues⟩, -⟩
        exact ⟨items, hitems, values, hvalues⟩
      · rintro ⟨items, hitems, values, hvalues⟩
        exact ⟨.list values, values, ⟨items, hitems, hvalues⟩, rfl⟩
    rw [hcheck, conforms_sequence_iff, Node.fits]
    simp only [ih, forall_and, List.all_eq_true]
    cases v.elements? <;> simp

theorem not_conforms_null {node : Node} (h : node ≠ .scalar .json) : ¬node.Conforms .null := by
  intro hconforms
  cases hconforms with
  | string htext => exact nomatch htext
  | json _ => exact h rfl
  | sequence hitems _ => exact nomatch hitems

/-- The check of a field accepts exactly the values that conform and fit. -/
theorem exists_field_check_iff {f : Field} {v : Value} :
    (∃ w, f.check v = .accepted w) ↔ f.Conforms v ∧ f.node.fits v = true := by
  by_cases hnull : v = .null
  · subst hnull
    have hfits : f.node.fits .null = true := by
      cases f.node with
      | scalar p => cases p <;> rfl
      | sequence element => rfl
    have hconforms : f.Conforms .null ↔ f.nullable = true := by
      simp [Field.Conforms]
    rw [hconforms, hfits, and_iff_left rfl, Field.check]
    by_cases hnullable : f.nullable = true
    · simp [hnullable]
    · by_cases hjson : f.node = .scalar .json
      · simp [hnullable, hjson, fail]
      · rw [if_neg hnullable, if_neg hjson, exists_check_iff]
        exact iff_of_false (fun h ↦ not_conforms_null hjson h.1) hnullable
  · have hconforms : f.Conforms v ↔ f.node.Conforms v := by
      simp [Field.Conforms, hnull]
    rw [check_eq_check_of_ne_null hnull, exists_check_iff, hconforms]

end EntityCompiler.Validation
