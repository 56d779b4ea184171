import EntityCompiler.Proofs.Calendar.IsoText
import EntityCompiler.Proofs.Entity.Build
import EntityCompiler.Proofs.Shape
import EntityCompiler.Proofs.Value.Plain
import EntityCompiler.Validation.Check

/-!
# Checks of kept literals

What is kept of a literal passes the check for its column type, except for JSON values with too many
levels and for the texts of moments with seconds in their offset, which are not read.  The outcome is the
literal with the texts at date positions replaced by their moments.
-/

namespace EntityCompiler

/-! ## The form of kept literals -/

namespace Literal

/-- What may be kept of a literal of a primitive type. -/
def ScalarForm : Primitive → Json → Prop
  | .string, .text _ => True
  | .number, .int _ => True
  | .number, .float _ => True
  | .integer, .int _ => True
  | .boolean, .bool _ => True
  | .date, .text s => ∃ t : Moment, s = t.isoText ∨ Instant.read s = .ok t
  | .json, _ => True
  | _, _ => False

/-- What may be kept of a literal of a column type. -/
def Form : ColumnType → Json → Prop
  | .primitive p, value => ScalarForm p value
  | .arrayOf element, .array items => ∀ item ∈ items, Form element item
  | .arrayOf _, _ => False

/-- The values that a primitive type admits, each with what is kept of it: the text of a moment, and
the value itself of anything else. -/
inductive Keeps : Primitive → Value → Json → Prop
  | string {v : Value} {s : String} : v.text? = some s → Keeps .string v (.text s)
  | int (n : Int) : Keeps .number (.int n) (.int n)
  | float (x : Finite64) : Keeps .number (.float (.finite x)) (.float x)
  | integer (n : Int) : Keeps .integer (.int n) (.int n)
  | boolean (b : Bool) : Keeps .boolean (.bool b) (.bool b)
  | moment (t : Moment) : Keeps .date (.moment t) (.text t.isoText)
  | instant {s : String} {t : Moment} : Instant.read s = .ok t → Keeps .date (.text s) (.text s)
  | json {v : Value} {value : Json} : v.toJson? = some value → Keeps .json v value

theorem keeps_of_readScalar {p : Primitive} {v : Value} {value : Json}
    (h : readScalar p v = .ok value) : Keeps p v value := by
  cases p with
  | json =>
    cases hjson : v.toJson? with
    | some found =>
      rw [readScalar, hjson] at h
      exact Except.ok.inj h ▸ .json hjson
    | none => simp [readScalar, hjson] at h
  | date =>
    cases v with
    | moment t => exact Except.ok.inj h ▸ .moment t
    | text s =>
      cases hread : Instant.read s with
      | ok t =>
        rw [readScalar, hread] at h
        exact Except.ok.inj h ▸ .instant hread
      | error refusal => simp [readScalar, hread] at h
    | _ => simp [readScalar] at h
  | number =>
    cases v with
    | int n => exact Except.ok.inj h ▸ .int n
    | float x =>
      cases x with
      | finite x => exact Except.ok.inj h ▸ .float x
      | _ => simp [readScalar] at h
    | _ => simp [readScalar] at h
  | string =>
    cases htext : v.text? with
    | some s =>
      rw [readScalar, htext] at h
      exact Except.ok.inj h ▸ .string htext
    | none => simp [readScalar, htext] at h
  | integer =>
    cases v with
    | int n => exact Except.ok.inj h ▸ .integer n
    | _ => simp [readScalar] at h
  | boolean =>
    cases v with
    | bool b => exact Except.ok.inj h ▸ .boolean b
    | _ => simp [readScalar] at h

/-- All that reading a scalar can do. -/
theorem readScalar_eq_ok_iff {p : Primitive} {v : Value} {value : Json} :
    readScalar p v = .ok value ↔ Keeps p v value := by
  refine ⟨keeps_of_readScalar, fun h ↦ ?_⟩
  cases h with
  | instant hread => rw [readScalar, hread]
  | json hjson => rw [readScalar, hjson]
  | string htext => rw [readScalar, htext]
  | _ => rfl

/-- The kept text of a date is one that is read, or the extended form of a moment. -/
theorem scalarForm_of_readScalar {p : Primitive} {v : Value} {value : Json}
    (h : readScalar p v = .ok value) : ScalarForm p value := by
  cases readScalar_eq_ok_iff.mp h with
  | moment t => exact ⟨t, .inl rfl⟩
  | instant hread => exact ⟨_, .inr hread⟩
  | _ => trivial

theorem readElements_eq_ok_iff {read : Value → Except Mismatch Json} {index : Nat}
    {items : List Value} {values : List Json} :
    readElements read index items = .ok values ↔
      List.Forall₂ (fun item value ↦ read item = .ok value) items values := by
  induction items generalizing index values with
  | nil => simp [readElements, eq_comm]
  | cons item items ih =>
    rw [readElements, List.forall₂_cons_left_iff]
    cases hitem : read item with
    | error reason => simp
    | ok value =>
      simp only [map_eq_ok_iff, ih, Except.ok.injEq]
      constructor
      · rintro ⟨rest, hrest, rfl⟩
        exact ⟨value, rest, rfl, hrest, rfl⟩
      · rintro ⟨other, rest, rfl, hrest, rfl⟩
        exact ⟨rest, hrest, rfl⟩

/-- A value is an array of a type if it has elements, all of that type. -/
theorem read_arrayOf_eq_ok_iff {element : ColumnType} {v : Value} {value : Json} :
    read (.arrayOf element) v = .ok value ↔ ∃ items values, v.items? = some items ∧
      List.Forall₂ (fun item value ↦ read element item = .ok value) items values ∧
      value = .array values := by
  cases hitems : v.items? with
  | none => simp [read, hitems]
  | some items =>
    simp only [read, hitems, map_eq_ok_iff, readElements_eq_ok_iff, Option.some.injEq,
      @eq_comm _ value]
    exact ⟨fun ⟨values, h⟩ ↦ ⟨items, values, rfl, h⟩,
      fun ⟨_, values, hsame, h⟩ ↦ ⟨values, hsame ▸ h⟩⟩

theorem form_of_read {type : ColumnType} {v : Value} {value : Json} (h : read type v = .ok value) :
    Form type value := by
  induction type generalizing v value with
  | primitive p => exact scalarForm_of_readScalar h
  | arrayOf element ih =>
    obtain ⟨items, values, -, hkept, rfl⟩ := read_arrayOf_eq_ok_iff.mp h
    change ∀ value ∈ values, Form element value
    clear h
    induction hkept with
    | nil => exact fun _ hmem ↦ absurd hmem List.not_mem_nil
    | cons hitem _ ihkept => exact List.forall_mem_cons.mpr ⟨ih hitem, ihkept⟩

theorem toJson?_eq_some_null_iff {v : Value} : v.toJson? = some .null ↔ v = .null := by
  cases v with
  | float x => cases x <;> simp [Value.toJson?]
  | columnType t => cases t <;> simp [Value.toJson?]
  | _ => simp [Value.toJson?]

/-- Nothing but null is kept as null. -/
theorem ne_null_of_read {type : ColumnType} {v : Value} {value : Json}
    (h : read type v = .ok value) (hv : v ≠ .null) : value ≠ .null := by
  rintro rfl
  cases type with
  | arrayOf element => exact form_of_read h
  | primitive p =>
    cases readScalar_eq_ok_iff.mp h with
    | json hjson => exact hv (toJson?_eq_some_null_iff.mp hjson)

/-! ## What validation makes of them -/

/-- The value of what is kept of a scalar literal, a moment for the text of a date. -/
def resolveScalar? : Primitive → Json → Option Value
  | .date, .text s =>
    match Instant.read s with
    | .ok t => some (.moment t)
    | .error _ => none
  | .date, _ => none
  | _, value => some value.toValue

/-- The value of what is kept of a literal, with a moment for the text at each date position. -/
def resolve? : ColumnType → Json → Option Value
  | .primitive p, value => resolveScalar? p value
  | .arrayOf element, .array items => (items.mapM (resolve? element)).map .list
  | .arrayOf _, _ => none

/-- Whether the texts at the date positions of what is kept of a literal are read. -/
def readable (type : ColumnType) (value : Json) : Bool :=
  (resolve? type value).isSome

theorem readable_arrayOf_iff {element : ColumnType} {items : List Json} :
    readable (.arrayOf element) (.array items) = true ↔
      ∀ item ∈ items, readable element item = true := by
  simp only [readable, Option.isSome_iff_exists, resolve?]
  exact exists_map_mapM_eq_some_iff

theorem readable_text_iff {s : String} :
    readable (.primitive .date) (.text s) = true ↔ ∃ t, Instant.read s = .ok t := by
  rw [readable, resolve?, resolveScalar?]
  cases Instant.read s <;> simp

/-- Whether the moments at the date positions of a literal have no seconds in their offsets. -/
def wholeMinutes : ColumnType → Value → Bool
  | .primitive .date, .moment t => t.wholeMinutes
  | .primitive _, _ => true
  | .arrayOf element, v => (v.items?.getD []).all (wholeMinutes element)

theorem readable_eq_wholeMinutes_scalar {p : Primitive} {v : Value} {value : Json}
    (h : readScalar p v = .ok value) :
    readable (.primitive p) value = wholeMinutes (.primitive p) v := by
  cases readScalar_eq_ok_iff.mp h with
  | moment t =>
    rw [Bool.eq_iff_iff, readable_text_iff, wholeMinutes]
    simp [Instant.read_isoText_eq_ok_iff]
  | instant hread => exact readable_text_iff.mpr ⟨_, hread⟩
  | _ => rfl

/-- What is kept of a literal is read exactly when its moments have no seconds in their offsets. -/
theorem readable_eq_wholeMinutes {type : ColumnType} {v : Value} {value : Json}
    (h : read type v = .ok value) : readable type value = wholeMinutes type v := by
  induction type generalizing v value with
  | primitive p => exact readable_eq_wholeMinutes_scalar h
  | arrayOf element ih =>
    obtain ⟨items, values, hitems, hkept, rfl⟩ := read_arrayOf_eq_ok_iff.mp h
    rw [Bool.eq_iff_iff, readable_arrayOf_iff, wholeMinutes, hitems, Option.getD_some,
      List.all_eq_true]
    clear hitems h
    induction hkept with
    | nil => simp
    | cons hitem _ ihkept => simp only [List.forall_mem_cons, ih hitem, ihkept]

/-- Whether the JSON values in what is kept of a literal have no more levels than validation looks
into. -/
def fits : ColumnType → Json → Bool
  | .primitive .json, value => value.depth ≤ depthLimit
  | .primitive _, _ => true
  | .arrayOf element, .array items => items.all (fits element)
  | .arrayOf _, _ => true

end Literal

namespace Validation

/-! ## Levels -/

theorem issuesBelow_eq_nil_iff {steps : List Issue.Step} {issues : List Issue} :
    issuesBelow steps issues = [] ↔ issues = [] := by
  simp [issuesBelow]

mutual

/-- A JSON value passes exactly when it has no more levels than are looked into. -/
theorem jsonIssues_toValue_eq_nil_iff {levels : Nat} : (value : Json) →
    (jsonIssues levels value.toValue = [] ↔ value.toValue.depth ≤ levels)
  | .null => by cases levels <;> simp [Json.toValue, jsonIssues, Value.depth]
  | .bool _ => by cases levels <;> simp [Json.toValue, jsonIssues, Value.depth]
  | .int _ => by cases levels <;> simp [Json.toValue, jsonIssues, Value.depth]
  | .float _ => by cases levels <;> simp [Json.toValue, jsonIssues, Value.depth]
  | .text _ => by cases levels <;> simp [Json.toValue, jsonIssues, Value.depth]
  | .array items => by
    cases levels with
    | zero => simp [Json.toValue, jsonIssues, Value.depth]
    | succ levels =>
      rw [Json.toValue, jsonIssues, jsonItemIssues_eq_nil_iff items, Value.depth,
        Nat.succ_le_succ_iff]
  | .object members => by
    cases levels with
    | zero => simp [Json.toValue, jsonIssues, Value.depth]
    | succ levels =>
      rw [Json.toValue, jsonIssues, jsonEntryIssues_eq_nil_iff members, Value.depth,
        Nat.succ_le_succ_iff]

theorem jsonItemIssues_eq_nil_iff {levels index : Nat} : (items : List Json) →
    (jsonItemIssues levels index (jsonItems items) = [] ↔
      Value.itemsDepth (jsonItems items) ≤ levels)
  | [] => by simp [jsonItems, jsonItemIssues, Value.itemsDepth]
  | item :: items => by
    rw [jsonItems, jsonItemIssues, Value.itemsDepth, List.append_eq_nil_iff,
      issuesBelow_eq_nil_iff, jsonIssues_toValue_eq_nil_iff item, jsonItemIssues_eq_nil_iff items,
      Nat.max_le]

theorem jsonEntryIssues_eq_nil_iff {levels : Nat} : (members : List (String × Json)) →
    (jsonEntryIssues levels (jsonEntries members) = [] ↔
      Value.entriesDepth (jsonEntries members) ≤ levels)
  | [] => by simp [jsonEntries, jsonEntryIssues, Value.entriesDepth]
  | (key, value) :: members => by
    rw [jsonEntries, jsonEntryIssues, Value.entriesDepth, List.append_eq_nil_iff,
      List.append_eq_nil_iff, issuesBelow_eq_nil_iff, issuesBelow_eq_nil_iff,
      and_iff_right (show (Shape.name (.text key)).issues = [] from rfl),
      jsonIssues_toValue_eq_nil_iff value, jsonEntryIssues_eq_nil_iff members, Nat.max_le]

end

mutual

/-- A JSON value has the form in which it is accepted. -/
theorem jsonForm_toValue : (value : Json) → jsonForm value.toValue = value.toValue
  | .null => rfl
  | .bool _ => rfl
  | .int _ => rfl
  | .float _ => rfl
  | .text _ => rfl
  | .array items => by rw [Json.toValue, jsonForm, jsonFormItems_jsonItems items]
  | .object members => by
    have htexts : ∀ key ∈ (jsonEntries members).map (·.1), ∃ name, key = .text name := by
      rw [Value.jsonEntries_eq_map, List.map_map]
      exact List.forall_mem_map.mpr fun member _ ↦ ⟨member.1, rfl⟩
    rw [Json.toValue, jsonForm, Shape.membersUnder_of_texts htexts, Value.ofFields,
      map_jsonFormMembers_jsonEntries members]

theorem jsonFormItems_jsonItems : (items : List Json) →
    jsonFormItems (jsonItems items) = jsonItems items
  | [] => rfl
  | item :: items => by
    rw [jsonItems, jsonFormItems, jsonForm_toValue item, jsonFormItems_jsonItems items]

theorem map_jsonFormMembers_jsonEntries : (members : List (String × Json)) →
    (jsonFormMembers (jsonEntries members)).map (fun (name, v) ↦ (Value.text name, v)) =
      jsonEntries members
  | [] => rfl
  | (key, value) :: members => by
    rw [jsonEntries, jsonFormMembers, List.map_cons, jsonForm_toValue value,
      map_jsonFormMembers_jsonEntries members]
    rfl

end

theorem checkJson_toValue_eq_accepted_iff {value : Json} {w : Value} :
    checkJson value.toValue = .accepted w ↔ value.depth ≤ depthLimit ∧ value.toValue = w := by
  rw [Json.depth, ← jsonIssues_toValue_eq_nil_iff, checkJson, jsonForm_toValue]
  cases jsonIssues depthLimit value.toValue <;> simp

/-! ## Checks -/

open Checked Literal Value

/-- What is kept of a scalar passes unless it is a JSON value with too many levels or a date without a
value. -/
theorem checkScalar_toValue_eq_accepted_iff {p : Primitive} {value : Json} {w : Value}
    (h : ScalarForm p value) : checkScalar p value.toValue = .accepted w ↔
      fits (.primitive p) value = true ∧ resolveScalar? p value = some w := by
  cases p with
  | json => simp [checkScalar, checkJson_toValue_eq_accepted_iff, fits, resolveScalar?]
  | date =>
    cases value with
    | text s =>
      cases hread : Instant.read s <;>
        simp [checkScalar, Json.toValue, checkDate, Value.toMoment, hread, fits, resolveScalar?, fail]
    | _ => exact absurd h id
  | number =>
    cases value with
    | int n => simp [checkScalar, Json.toValue, fits, resolveScalar?]
    | float x => simp [checkScalar, Json.toValue, fits, resolveScalar?]
    | _ => exact absurd h id
  | string =>
    cases value with
    | text s => simp [checkScalar, Json.toValue, Shape.text, Checked.map, fits, resolveScalar?]
    | _ => exact absurd h id
  | integer =>
    cases value with
    | int n => simp [checkScalar, Json.toValue, fits, resolveScalar?]
    | _ => exact absurd h id
  | boolean =>
    cases value with
    | bool b => simp [checkScalar, Json.toValue, fits, resolveScalar?]
    | _ => exact absurd h id

/-- What is kept of a literal passes the check for its type if its JSON values have few enough levels and
all its dates have values.  The outcome has these moments for the texts of dates. -/
theorem check_toValue_eq_accepted_iff {type : ColumnType} {value : Json} {w : Value}
    (h : Form type value) : (Node.of type).check value.toValue = .accepted w ↔
      fits type value = true ∧ resolve? type value = some w := by
  induction type generalizing value w with
  | primitive p => exact checkScalar_toValue_eq_accepted_iff h
  | arrayOf element ih =>
    cases value with
    | array items =>
      have hitems (values : List Value) :
          List.Forall₂ (fun item value ↦ (Node.of element).check item = .accepted value)
            (items.map Json.toValue) values ↔ (∀ item ∈ items, fits element item = true) ∧
            List.Forall₂ (fun item value ↦ resolve? element item = some value) items values := by
        rw [List.forall₂_map_left_iff, ← List.forall₂_and_left]
        exact forall₂_iff_of_forall_mem fun item hitem value ↦ ih (h item hitem)
      have hlist : Value.elements? (.list (items.map Json.toValue)) = some (items.map Json.toValue) :=
        rfl
      simp only [Node.of, Node.check, Json.toValue, jsonItems_eq_map, map_eq_accepted_iff,
        Shape.list_eq_accepted_iff, hlist, Option.some.injEq, exists_eq_left', hitems, fits,
        List.all_eq_true, resolve?, Option.map_eq_some_iff, mapM_eq_some_iff]
      constructor
      · rintro ⟨values, ⟨hfits, hvalues⟩, hw⟩
        exact ⟨hfits, values, hvalues, hw⟩
      · rintro ⟨hfits, values, hvalues, hw⟩
        exact ⟨values, ⟨hfits, hvalues⟩, hw⟩
    | _ => exact absurd h id

end Validation

end EntityCompiler
