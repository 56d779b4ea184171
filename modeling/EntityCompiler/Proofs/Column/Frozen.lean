import EntityCompiler.Proofs.Validation.Literal
import EntityCompiler.Proofs.Value.Respelled

/-!
# Frozen literals

What an entity holds of a default or example.  The moments of date columns are replaced by their
texts, then every list becomes a tuple and every dictionary a read-only one.  The result holds nothing
that can be changed, and reading it again as a literal of its column gives the same JSON value.
-/

namespace EntityCompiler

/-- A value as it is held in memory.  Lists and dictionaries can be changed, tuples and read-only
dictionaries cannot. -/
inductive Held where
  | scalar (v : Value)
  | list (items : List Held)
  | tuple (items : List Held)
  | dict (entries : List (Value × Held))
  | readOnly (entries : List (Value × Held))

namespace Value

mutual

/-- The frozen form of a value.  A primitive column type is held as the text that it equals. -/
def freeze : Value → Held
  | .list items => .tuple (freezeItems items)
  | .tuple items => .tuple (freezeItems items)
  | .dict entries => .readOnly (freezeEntries entries)
  | v => .scalar v.asText

def freezeItems : List Value → List Held
  | [] => []
  | item :: rest => freeze item :: freezeItems rest

def freezeEntries : List (Value × Value) → List (Value × Held)
  | [] => []
  | (key, value) :: rest => (key.asText, freeze value) :: freezeEntries rest

end

theorem freezeItems_eq_map (items : List Value) : freezeItems items = items.map freeze := by
  induction items with
  | nil => rfl
  | cons item items ih => rw [freezeItems, ih, List.map_cons]

end Value

namespace Held

mutual

/-- What a check sees of a held value: a read-only dictionary is a dictionary. -/
def value : Held → Value
  | .scalar v => v
  | .list items => .list (itemValues items)
  | .tuple items => .tuple (itemValues items)
  | .dict entries => .dict (entryValues entries)
  | .readOnly entries => .dict (entryValues entries)

def itemValues : List Held → List Value
  | [] => []
  | item :: rest => value item :: itemValues rest

def entryValues : List (Value × Held) → List (Value × Value)
  | [] => []
  | (key, item) :: rest => (key, value item) :: entryValues rest

end

/-- The held values without anything that can be changed, without moments and without numbers that
are not finite, at any depth. -/
inductive Constant : Held → Prop
  | null : Constant (.scalar .null)
  | bool (b : Bool) : Constant (.scalar (.bool b))
  | int (n : Int) : Constant (.scalar (.int n))
  | float (x : Finite64) : Constant (.scalar (.float (.finite x)))
  | text (s : String) : Constant (.scalar (.text s))
  | tuple {items : List Held} : (∀ item ∈ items, Constant item) → Constant (.tuple items)
  | readOnly {entries : List (Value × Held)} : (∀ entry ∈ entries, ∃ key, entry.1 = .text key) →
      (∀ entry ∈ entries, Constant entry.2) → Constant (.readOnly entries)

end Held

/-- What an entity holds for a kept JSON value. -/
def Json.held (value : Json) : Held :=
  value.toValue.freeze

/-! ## Frozen JSON values -/

theorem textual_freezeEntries (members : List (String × Json)) :
    ∀ entry ∈ Value.freezeEntries (jsonEntries members), ∃ key, entry.1 = .text key := by
  induction members with
  | nil => exact fun _ hmem ↦ absurd hmem List.not_mem_nil
  | cons member members ih => exact List.forall_mem_cons.mpr ⟨⟨member.1, rfl⟩, ih⟩

mutual

theorem Json.constant_held : (value : Json) → value.held.Constant
  | .null => .null
  | .bool b => .bool b
  | .int n => .int n
  | .float x => .float x
  | .text s => .text s
  | .array items => .tuple (constant_freezeItems items)
  | .object members => .readOnly (textual_freezeEntries members) (constant_freezeEntries members)

theorem constant_freezeItems : (items : List Json) →
    ∀ item ∈ Value.freezeItems (jsonItems items), item.Constant
  | [] => fun _ hmem ↦ absurd hmem List.not_mem_nil
  | item :: items => List.forall_mem_cons.mpr ⟨item.constant_held, constant_freezeItems items⟩

theorem constant_freezeEntries : (members : List (String × Json)) →
    ∀ entry ∈ Value.freezeEntries (jsonEntries members), entry.2.Constant
  | [] => fun _ hmem ↦ absurd hmem List.not_mem_nil
  | (_, value) :: members =>
    List.forall_mem_cons.mpr ⟨value.constant_held, constant_freezeEntries members⟩

end

mutual

/-- A frozen JSON value stands for the value itself. -/
theorem Json.toJson?_held : (value : Json) → value.held.value.toJson? = some value
  | .null => rfl
  | .bool _ => rfl
  | .int _ => rfl
  | .float _ => rfl
  | .text _ => rfl
  | .array items => by
    change (Value.itemsToJson? (Held.itemValues (Value.freezeItems (jsonItems items)))).map
      Json.array = _
    rw [itemsToJson?_freezeItems items]
    rfl
  | .object members => by
    change (Value.entriesToJson? (Held.entryValues (Value.freezeEntries (jsonEntries members)))).map
      Json.object = _
    rw [entriesToJson?_freezeEntries members]
    rfl

theorem itemsToJson?_freezeItems : (items : List Json) →
    Value.itemsToJson? (Held.itemValues (Value.freezeItems (jsonItems items))) = some items
  | [] => rfl
  | item :: items => by
    rw [jsonItems, Value.freezeItems, Held.itemValues, Value.itemsToJson?,
      itemsToJson?_freezeItems items]
    change (item.held.value.toJson?.bind fun item ↦ some (item :: items)) = _
    rw [item.toJson?_held]
    rfl

theorem entriesToJson?_freezeEntries : (members : List (String × Json)) →
    Value.entriesToJson? (Held.entryValues (Value.freezeEntries (jsonEntries members))) =
      some members
  | [] => rfl
  | (key, value) :: members => by
    rw [jsonEntries, Value.freezeEntries, Held.entryValues, Value.entriesToJson?,
      entriesToJson?_freezeEntries members]
    change (value.held.value.toJson?.bind fun value ↦ some ((key, value) :: members)) = _
    rw [value.toJson?_held]
    rfl

end

/-! ## Reading again -/

namespace Value

/-- A value that stands for an array has the items that stand for its items. -/
theorem items?_of_toJson? {v : Value} {items : List Json} (h : v.toJson? = some (.array items)) :
    ∃ given, v.items? = some given ∧
      List.Forall₂ (fun v value ↦ v.toJson? = some value) given items := by
  have hitems {given : List Value} (h : (itemsToJson? given).map Json.array = some (.array items)) :
      List.Forall₂ (fun v value ↦ v.toJson? = some value) given items := by
    obtain ⟨values, hvalues, hsame⟩ := Option.map_eq_some_iff.mp h
    obtain rfl := Json.array.inj hsame
    exact mapM_eq_some_iff.mp (itemsToJson?_eq_mapM given ▸ hvalues)
  cases v with
  | list given => exact ⟨given, rfl, hitems h⟩
  | tuple given => exact ⟨given, rfl, hitems h⟩
  | float x => cases x <;> simp [toJson?] at h
  | columnType t => cases t <;> simp [toJson?] at h
  | _ => simp [toJson?] at h

/-- A value that stands for a text is that text. -/
theorem text?_of_toJson? {v : Value} {s : String} (h : v.toJson? = some (.text s)) :
    v.text? = some s := by
  cases v with
  | float x => cases x <;> simp [toJson?] at h
  | columnType t => cases t <;> simp_all [toJson?]
  | _ => simp_all [toJson?]

/-- A value that stands for any other scalar is that scalar. -/
theorem eq_toValue_of_toJson? {v : Value} {value : Json} (h : v.toJson? = some value)
    (htext : ∀ s, value ≠ .text s) (harray : ∀ items, value ≠ .array items)
    (hobject : ∀ members, value ≠ .object members) : v = value.toValue := by
  cases v with
  | float x =>
    cases x with
    | finite x =>
      obtain rfl := Option.some.inj h
      rfl
    | _ => simp [toJson?] at h
  | list given =>
    obtain ⟨items, -, rfl⟩ := Option.map_eq_some_iff.mp h
    exact absurd rfl (harray items)
  | tuple given =>
    obtain ⟨items, -, rfl⟩ := Option.map_eq_some_iff.mp h
    exact absurd rfl (harray items)
  | dict entries =>
    obtain ⟨members, -, rfl⟩ := Option.map_eq_some_iff.mp h
    exact absurd rfl (hobject members)
  | bytes data => simp [toJson?] at h
  | moment t => simp [toJson?] at h
  | collection kind items => simp [toJson?] at h
  | columnType t =>
    cases t with
    | primitive p => exact absurd (Option.some.inj h).symm (htext p.name)
    | arrayOf element => simp [toJson?] at h
  | _ =>
    obtain rfl := Option.some.inj h
    rfl

end Value

namespace Literal

/-- The name of a primitive denotes no instant. -/
theorem read_primitiveName (p : Primitive) (t : Moment) : Instant.read p.name ≠ .ok t := by
  cases p <;> exact nofun

/-- A text is read as a date whatever kind of text it is. -/
theorem readScalar_date_of_text? {v : Value} {s : String} {kept : Json} (h : v.text? = some s) :
    readScalar .date v = .ok kept ↔ (∃ t, Instant.read s = .ok t) ∧ .text s = kept := by
  rcases Value.text?_eq_some_iff.mp h with rfl | ⟨p, rfl, rfl⟩
  · rw [readScalar]
    cases Instant.read s <;> simp
  · simp [readScalar, read_primitiveName]

theorem readScalar_of_toJson? {p : Primitive} {v : Value} {value kept : Json}
    (hjson : v.toJson? = some value) (h : ScalarForm p value) :
    readScalar p v = .ok kept ↔ readable (.primitive p) value = true ∧ value = kept := by
  cases p with
  | json => simp [readScalar, hjson, readable, resolve?, resolveScalar?]
  | date =>
    cases value with
    | text s => rw [readScalar_date_of_text? (Value.text?_of_toJson? hjson), readable_text_iff]
    | _ => exact absurd h id
  | number =>
    cases value with
    | int n => simp [Value.eq_toValue_of_toJson? hjson, Json.toValue, readScalar, readable, resolve?,
        resolveScalar?]
    | float x => simp [Value.eq_toValue_of_toJson? hjson, Json.toValue, readScalar, readable, resolve?,
        resolveScalar?]
    | _ => exact absurd h id
  | string =>
    cases value with
    | text s => simp [Value.text?_of_toJson? hjson, readScalar, readable, resolve?, resolveScalar?]
    | _ => exact absurd h id
  | integer =>
    cases value with
    | int n => simp [Value.eq_toValue_of_toJson? hjson, Json.toValue, readScalar, readable, resolve?,
        resolveScalar?]
    | _ => exact absurd h id
  | boolean =>
    cases value with
    | bool b => simp [Value.eq_toValue_of_toJson? hjson, Json.toValue, readScalar, readable, resolve?,
        resolveScalar?]
    | _ => exact absurd h id

/-- Whatever stands for what is kept of a literal is a literal of the same type if the texts of its dates
are read, and the same is kept of it. -/
theorem read_of_toJson? {type : ColumnType} {v : Value} {value kept : Json}
    (hjson : v.toJson? = some value) (h : Form type value) :
    read type v = .ok kept ↔ readable type value = true ∧ value = kept := by
  induction type generalizing v value kept with
  | primitive p => exact readScalar_of_toJson? hjson h
  | arrayOf element ih =>
    cases value with
    | array items =>
      obtain ⟨given, hgiven, hitems⟩ := Value.items?_of_toJson? hjson
      have hread (values : List Json) :
          List.Forall₂ (fun item value ↦ read element item = .ok value) given values ↔
            (∀ item ∈ items, readable element item = true) ∧ items = values := by
        clear hgiven hjson
        induction hitems generalizing values with
        | nil => cases values <;> simp
        | cons hitem _ ihitems =>
          change ∀ value ∈ _, Form element value at h
          rw [List.forall_mem_cons] at h
          rw [List.forall₂_cons_left_iff]
          simp only [ih hitem h.1, ihitems h.2, List.forall_mem_cons]
          constructor
          · rintro ⟨_, _, ⟨hfirst, rfl⟩, ⟨hrest, rfl⟩, rfl⟩
            exact ⟨⟨hfirst, hrest⟩, rfl⟩
          · rintro ⟨⟨hfirst, hrest⟩, rfl⟩
            exact ⟨_, _, ⟨hfirst, rfl⟩, ⟨hrest, rfl⟩, rfl⟩
      rw [read_arrayOf_eq_ok_iff, readable_arrayOf_iff]
      simp only [hgiven, Option.some.injEq, exists_and_left, exists_eq_left', hread]
      constructor
      · rintro ⟨_, ⟨hreadable, rfl⟩, rfl⟩
        exact ⟨hreadable, rfl⟩
      · rintro ⟨hreadable, rfl⟩
        exact ⟨items, ⟨hreadable, rfl⟩, rfl⟩
    | _ => exact absurd h id

/-- What an entity holds of a literal is admitted again exactly if the texts of its dates are read. -/
theorem mismatch?_held_iff {type : ColumnType} {value : Json} (h : Form type value) :
    mismatch? type value.held.value = none ↔ readable type value = true := by
  have hread (kept : Json) : read type value.held.value = .ok kept ↔
      readable type value = true ∧ value = kept := read_of_toJson? value.toJson?_held h
  rw [mismatch?]
  cases hkept : read type value.held.value with
  | ok kept => simp [((hread kept).mp hkept).1]
  | error reason =>
    refine iff_of_false (by simp) fun hreadable ↦ ?_
    exact nomatch hkept.symm.trans ((hread value).mpr ⟨hreadable, rfl⟩)

/-! ## Normal forms -/

/-- A literal with the texts of its moments at the date positions of a column type. -/
def normalize : ColumnType → Value → Value
  | .arrayOf element, v =>
    match v.items? with
    | some items => .list (items.map (normalize element))
    | none => v
  | .primitive .date, .moment t => .text t.isoText
  | .primitive _, v => v

end Literal

namespace Value

mutual

/-- A value that stands for a JSON value is frozen to the same as that one. -/
theorem freeze_of_toJson? (v : Value) {value : Json} (h : v.toJson? = some value) :
    v.freeze = value.held := by
  cases v with
  | null => obtain rfl := Option.some.inj h; rfl
  | bool b => obtain rfl := Option.some.inj h; rfl
  | int n => obtain rfl := Option.some.inj h; rfl
  | text s => obtain rfl := Option.some.inj h; rfl
  | float x =>
    cases x with
    | finite x => obtain rfl := Option.some.inj h; rfl
    | _ => simp [toJson?] at h
  | list items =>
    obtain ⟨values, hvalues, rfl⟩ := Option.map_eq_some_iff.mp h
    exact congrArg Held.tuple (freezeItems_of_toJson? items hvalues)
  | tuple items =>
    obtain ⟨values, hvalues, rfl⟩ := Option.map_eq_some_iff.mp h
    exact congrArg Held.tuple (freezeItems_of_toJson? items hvalues)
  | dict entries =>
    obtain ⟨members, hmembers, rfl⟩ := Option.map_eq_some_iff.mp h
    exact congrArg Held.readOnly (freezeEntries_of_toJson? entries hmembers)
  | bytes data => simp [toJson?] at h
  | moment t => simp [toJson?] at h
  | collection kind items => simp [toJson?] at h
  | columnType t =>
    cases t with
    | primitive p => obtain rfl := Option.some.inj h; rfl
    | arrayOf element => simp [toJson?] at h

theorem freezeItems_of_toJson? (items : List Value) {values : List Json}
    (h : itemsToJson? items = some values) : freezeItems items = freezeItems (jsonItems values) := by
  cases items with
  | nil =>
    obtain rfl := Option.some.inj h
    rfl
  | cons item items =>
    obtain ⟨value, hvalue, h⟩ := Option.bind_eq_some_iff.mp h
    obtain ⟨rest, hrest, h⟩ := Option.bind_eq_some_iff.mp h
    obtain rfl := Option.some.inj h
    rw [freezeItems, freeze_of_toJson? item hvalue, freezeItems_of_toJson? items hrest]
    rfl

theorem freezeEntries_of_toJson? (entries : List (Value × Value)) {members : List (String × Json)}
    (h : entriesToJson? entries = some members) :
    freezeEntries entries = freezeEntries (jsonEntries members) := by
  cases entries with
  | nil =>
    obtain rfl := Option.some.inj h
    rfl
  | cons entry entries =>
    obtain ⟨key, v⟩ := entry
    obtain ⟨name, hname, h⟩ := Option.bind_eq_some_iff.mp h
    obtain ⟨value, hvalue, h⟩ := Option.bind_eq_some_iff.mp h
    obtain ⟨rest, hrest, h⟩ := Option.bind_eq_some_iff.mp h
    obtain rfl := Option.some.inj h
    rw [freezeEntries, asText_of_text? hname, freeze_of_toJson? v hvalue,
      freezeEntries_of_toJson? entries hrest]
    rfl

end

end Value

namespace Literal

/-- A moment is kept as its text, any other scalar as the JSON value that it stands for. -/
theorem readScalar_eq_ok {p : Primitive} {v : Value} {value : Json}
    (h : readScalar p v = .ok value) :
    (∃ t, p = .date ∧ v = .moment t ∧ value = .text t.isoText) ∨ v.toJson? = some value := by
  cases readScalar_eq_ok_iff.mp h with
  | moment t => exact .inl ⟨t, rfl, rfl, rfl⟩
  | json hjson => exact .inr hjson
  | string htext => exact .inr (Value.toJson?_of_text? htext)
  | _ => exact .inr rfl

theorem normalize_primitive_of_toJson? {p : Primitive} {v : Value} {value : Json}
    (h : v.toJson? = some value) : normalize (.primitive p) v = v := by
  cases p with
  | date => cases v <;> first | rfl | simp [Value.toJson?] at h
  | _ => rfl

/-- What an entity holds of a literal is its normal form, frozen. -/
theorem freeze_normalize {type : ColumnType} {v : Value} {value : Json}
    (h : read type v = .ok value) : (normalize type v).freeze = value.held := by
  induction type generalizing v value with
  | primitive p =>
    rcases readScalar_eq_ok h with ⟨t, rfl, rfl, rfl⟩ | hjson
    · rfl
    · rw [normalize_primitive_of_toJson? hjson]
      exact Value.freeze_of_toJson? v hjson
  | arrayOf element ih =>
    obtain ⟨items, values, hitems, hkept, rfl⟩ := read_arrayOf_eq_ok_iff.mp h
    have hfrozen : (items.map (normalize element)).map Value.freeze = values.map Json.held := by
      rw [List.map_map, ← List.forall₂_eq_eq_eq, List.forall₂_map_left_iff,
        List.forall₂_map_right_iff]
      exact hkept.imp fun item value hitem ↦ ih hitem
    rw [normalize, hitems]
    change Held.tuple (Value.freezeItems (items.map (normalize element))) =
      Held.tuple (Value.freezeItems (jsonItems values))
    rw [Value.freezeItems_eq_map, hfrozen, Value.freezeItems_eq_map, Value.jsonItems_eq_map,
      List.map_map]
    rfl

end Literal

end EntityCompiler
