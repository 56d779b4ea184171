import EntityCompiler.Proofs.Validation.Records
import EntityCompiler.Proofs.Value.Respelled

/-!
# Literals and records

The literals of a column type and the values that a required field of that type accepts.  For values made
of lists and of finite numbers, what is a literal is what conforms to the node of the type, so that the
two differ only where a JSON value has more levels than validation looks into.
-/

namespace EntityCompiler

/-! ## Literals that conform -/

/-- The values made of scalars, lists and dictionaries, with finite numbers and with keys of some kind. -/
inductive Value.Regular (P : Value → Prop) : Value → Prop
  | null : Regular P .null
  | bool (b : Bool) : Regular P (.bool b)
  | int (n : Int) : Regular P (.int n)
  | float (x : Finite64) : Regular P (.float (.finite x))
  | text {v : Value} {s : String} : v.text? = some s → Regular P v
  | moment (t : Moment) : Regular P (.moment t)
  | list {items : List Value} : (∀ item ∈ items, Regular P item) → Regular P (.list items)
  | dict {entries : List (Value × Value)} : (∀ entry ∈ entries, P entry.1) →
      (∀ entry ∈ entries, Regular P entry.2) → Regular P (.dict entries)

namespace Value

/-- A key with the text in the place of its bytes. -/
def namedKey : Value → Value
  | .bytes data => (Text.ofUtf8? data).elim (.bytes data) .text
  | key => key

mutual

/-- The value with texts in the place of the bytes of keys. -/
def named : Value → Value
  | .list items => .list (namedItems items)
  | .dict entries => .dict (namedEntries entries)
  | v => v

def namedItems : List Value → List Value
  | [] => []
  | item :: rest => named item :: namedItems rest

def namedEntries : List (Value × Value) → List (Value × Value)
  | [] => []
  | (key, value) :: rest => (namedKey key, named value) :: namedEntries rest

end

theorem namedItems_eq_map (items : List Value) : namedItems items = items.map named := by
  induction items with
  | nil => rfl
  | cons item items ih => rw [namedItems, ih, List.map_cons]

theorem namedEntries_eq_map (entries : List (Value × Value)) :
    namedEntries entries = entries.map fun entry ↦ (namedKey entry.1, named entry.2) := by
  induction entries with
  | nil => rfl
  | cons entry entries ih => rw [namedEntries, ih, List.map_cons]

theorem text?_namedKey (key : Value) : key.namedKey.text? = key.name? := by
  cases key with
  | bytes data =>
    rw [namedKey, name?]
    cases Text.ofUtf8? data <;> rfl
  | _ => rfl

theorem named_of_text? {v : Value} {s : String} (h : v.text? = some s) : v.named = v := by
  rcases text?_eq_some_iff.mp h with rfl | ⟨p, rfl, -⟩ <;> rfl

variable {P : Value → Prop} {v : Value}

/-- A value without bytes for keys has all its texts in place. -/
theorem Regular.named_eq_self (h : v.Regular fun key ↦ key.isBytes = false) : v.named = v := by
  induction h with
  | text htext => exact named_of_text? htext
  | @list items _ ih =>
    rw [named, namedItems_eq_map, List.map_congr_left ih, List.map_id']
  | @dict entries hkeys _ ih =>
    rw [named, namedEntries_eq_map]
    congr 1
    refine (List.map_congr_left fun entry hentry ↦ ?_).trans (List.map_id _)
    have hkey : entry.1.namedKey = entry.1 := by
      cases hlabel : entry.1 with
      | bytes data => exact nomatch (hlabel ▸ hkeys entry hentry)
      | _ => rfl
    rw [hkey, ih entry hentry]
    rfl
  | _ => rfl

/-- The items of a regular value are those of a list. -/
theorem Regular.items (h : v.Regular P) {items : List Value} (hitems : v.elements? = some items) :
    (∀ item ∈ items, item.Regular P) ∧ v.named.items? = some (items.map named) := by
  cases h with
  | text htext => rcases text?_eq_some_iff.mp htext with rfl | ⟨p, rfl, -⟩ <;> exact nomatch hitems
  | list hall =>
    obtain rfl := Option.some.inj hitems
    exact ⟨hall, congrArg some (namedItems_eq_map _)⟩
  | _ => exact nomatch hitems

theorem Regular.items?_named_eq_none (h : v.Regular P) (hitems : v.elements? = none) :
    v.named.items? = none := by
  cases h with
  | text htext => rcases text?_eq_some_iff.mp htext with rfl | ⟨p, rfl, -⟩ <;> rfl
  | list hall => exact nomatch hitems
  | _ => rfl

end Value

namespace Validation

variable {P : Value → Prop}

/-- A regular value stands for a JSON value, with texts for keys, exactly when it is like one. -/
theorem exists_toJson?_named_iff {v : Value} (h : v.Regular P) :
    (∃ value, v.named.toJson? = some value) ↔ JsonLike v := by
  induction h with
  | null => exact iff_of_true ⟨_, rfl⟩ .null
  | bool b => exact iff_of_true ⟨_, rfl⟩ (.bool b)
  | int n => exact iff_of_true ⟨_, rfl⟩ (.int n)
  | float x => exact iff_of_true ⟨_, rfl⟩ (.float _)
  | text htext =>
    rw [Value.named_of_text? htext]
    exact iff_of_true ⟨_, Value.toJson?_of_text? htext⟩ (.text htext)
  | moment t =>
    refine iff_of_false (by simp [Value.named, Value.toJson?]) ?_
    rintro (_ | _ | _ | _ | htext)
    exact nomatch htext
  | @list items _ ih =>
    have hitems : (∃ value, (Value.list items).named.toJson? = some value) ↔
        ∀ item ∈ items, ∃ value, item.named.toJson? = some value := by
      rw [Value.named, Value.toJson?, Value.itemsToJson?_eq_mapM, Value.namedItems_eq_map,
        exists_map_mapM_eq_some_iff]
      exact List.forall_mem_map
    rw [hitems, jsonLike_list]
    exact forall₂_congr ih
  | @dict entries _ _ ih =>
    have hentries : (∃ value, (Value.dict entries).named.toJson? = some value) ↔
        ∀ entry ∈ entries, ∃ member,
          Value.entryToJson? (entry.1.namedKey, entry.2.named) = some member := by
      rw [Value.named, Value.toJson?, Value.entriesToJson?_eq_mapM, Value.namedEntries_eq_map,
        exists_map_mapM_eq_some_iff]
      exact List.forall_mem_map
    rw [hentries, jsonLike_dict]
    refine forall₂_congr fun entry hentry ↦ ?_
    rw [← ih entry hentry]
    rw [Value.entryToJson?, Value.text?_namedKey]
    cases entry.1.name? <;> simp

/-- Keys count for JSON values only. -/
theorem readScalar_named {p : Primitive} (h : p ≠ .json) (v : Value) :
    Literal.readScalar p v.named = Literal.readScalar p v := by
  cases v with
  | list items => cases p <;> first | rfl | exact absurd rfl h
  | dict entries => cases p <;> first | rfl | exact absurd rfl h
  | _ => rfl

theorem exists_readScalar_iff {p : Primitive} {v : Value} (h : v.Regular P) :
    (∃ value, Literal.readScalar p v.named = .ok value) ↔ (Node.scalar p).Conforms v := by
  by_cases hp : p = .json
  · subst hp
    have hconforms : (Node.scalar .json).Conforms v ↔ JsonLike v :=
      ⟨fun hconforms ↦ by cases hconforms with | json hlike => exact hlike, .json⟩
    rw [hconforms, ← exists_toJson?_named_iff h]
    refine exists_congr fun value ↦ ?_
    rw [Literal.readScalar]
    cases v.named.toJson? <;> simp
  · rw [readScalar_named hp]
    constructor
    · rintro ⟨value, hvalue⟩
      cases Literal.readScalar_eq_ok_iff.mp hvalue with
      | string htext => exact .string htext
      | int n => exact .int n
      | float x => exact .float _
      | integer n => exact .integer n
      | boolean b => exact .boolean b
      | moment t => exact .moment t
      | instant hread => exact .instant hread
      | json hjson => exact absurd rfl hp
    · intro hconforms
      cases hconforms with
      | json hlike => exact absurd rfl hp
      | string htext => exact ⟨_, Literal.readScalar_eq_ok_iff.mpr (.string htext)⟩
      | instant ht => exact ⟨_, Literal.readScalar_eq_ok_iff.mpr (.instant ht)⟩
      | float x =>
        cases h with
        | float x => exact ⟨.float x, rfl⟩
        | text htext => cases htext
      | _ => exact ⟨_, rfl⟩

/-- A regular value, with texts for keys, is a literal of a column type exactly when it conforms to its
node. -/
theorem exists_read_iff {type : ColumnType} {v : Value} (h : v.Regular P) :
    (∃ value, Literal.read type v.named = .ok value) ↔ (Node.of type).Conforms v := by
  induction type generalizing v with
  | primitive p => exact exists_readScalar_iff h
  | arrayOf element ih =>
    rw [Node.of, conforms_sequence_iff]
    cases helements : v.elements? with
    | none => simp [Literal.read, h.items?_named_eq_none helements]
    | some items =>
      obtain ⟨hregular, hitems⟩ := h.items helements
      have hread : (∃ value, Literal.read (.arrayOf element) v.named = .ok value) ↔
          ∀ item ∈ items, ∃ value, Literal.read element item.named = .ok value := by
        rw [← List.forall_mem_map (P := fun item ↦ ∃ value, Literal.read element item = .ok value),
          ← exists_forall₂_iff]
        simp only [Literal.read_arrayOf_eq_ok_iff, hitems, Option.some.injEq, exists_and_left,
          exists_eq_left', ↓existsAndEq, and_true]
      rw [hread]
      simp only [Option.some.injEq, exists_eq_left']
      exact forall₂_congr fun item hmem ↦ ih (hregular item hmem)

theorem mismatch?_eq_none_iff {type : ColumnType} {v : Value} :
    Literal.mismatch? type v = none ↔ ∃ value, Literal.read type v = .ok value := by
  rw [Literal.mismatch?]
  cases Literal.read type v <;> simp

/-! ## Records with one field -/

/-- A record with the only field of a schema is accepted exactly when the field accepts its value. -/
theorem exists_validate_single_iff {s : Schema} {f : Field} (hfields : s.fields = [f]) (v : Value) :
    (∃ result, s.validate [(.text f.name, v)] = .ok result) ↔ ∃ w, f.check v = .accepted w := by
  have hnames : s.fieldNames = [f.name] := by rw [Schema.fieldNames, hfields]; rfl
  have hvalue : f.value? (placeName 0) [(.text f.name, v)] =
      ((f.check v).below (.key f.name)).map fun v ↦ some (f.name, v) := by
    simp [Field.value?, Value.lookup?]
  have hknown : Shape.noOthers [f.name] [(.text f.name, v)] = .accepted () :=
    Shape.noOthers_eq_accepted_iff.mpr fun entry hentry ↦
      ⟨f.name, List.mem_cons_self, List.mem_singleton.mp hentry ▸ rfl⟩
  rw [Schema.validate, Schema.check, hfields, hnames, hknown, List.zipIdx_singleton,
    List.map_singleton]
  simp only [hvalue]
  cases f.check v <;> cases s.strict <;>
    simp [Checked.below, Checked.map, Checked.all, Checked.both, Checked.toExcept, SeqLeft.seqLeft]

/-- A regular value other than null is accepted by a schema with one field exactly when it is, with texts
for the keys that are given by their bytes, a literal of the type of the field and its JSON values have no
more levels than validation looks into, whether or not the field is required or may be null.  Without such
keys it is the value itself that has to be a literal. -/
theorem validate_single_iff_literal {type : ColumnType} {v : Value} (hv : v.Regular fun _ ↦ True)
    (hnull : v ≠ .null) {s : Schema} {f : Field} (hfields : s.fields = [f])
    (hnode : f.node = Node.of type) :
    ((∃ result, s.validate [(.text f.name, v)] = .ok result) ↔
      Literal.mismatch? type v.named = none ∧ (Node.of type).fits v = true) ∧
    (v.Regular (fun key ↦ key.isBytes = false) →
      ((∃ result, s.validate [(.text f.name, v)] = .ok result) ↔
        Literal.mismatch? type v = none ∧ (Node.of type).fits v = true)) := by
  have hconforms : f.Conforms v ↔ (Node.of type).Conforms v := by
    simp [Field.Conforms, hnull, hnode]
  have haccepted : (∃ result, s.validate [(.text f.name, v)] = .ok result) ↔
      Literal.mismatch? type v.named = none ∧ (Node.of type).fits v = true := by
    rw [exists_validate_single_iff hfields, exists_field_check_iff, hconforms, hnode,
      mismatch?_eq_none_iff, exists_read_iff hv]
  refine ⟨haccepted, fun htexts ↦ ?_⟩
  rw [haccepted, htexts.named_eq_self]

/-- The only field of a schema: it is required and may not be null. -/
def soleField (type : ColumnType) : Field where
  name := "data"
  node := Node.of type
  required := true
  nullable := false

/-- A schema with one required field that may not be null. -/
def soleSchema (type : ColumnType) : Schema where
  name := "Book"
  fields := [soleField type]

theorem validate_single_iff_literal_newYear :
    let type := ColumnType.arrayOf (.primitive .date)
    let v := Value.list [.moment newYear, .text "2026-01-01T00:00:00Z"]
    v.Regular (fun _ ↦ True) ∧ v ≠ .null ∧ (soleSchema type).fields = [soleField type] ∧
      (soleField type).node = Node.of type ∧
      ∃ result, (soleSchema type).validate [(.text (soleField type).name, v)] = .ok result := by
  intro type v
  have hv : v.Regular fun _ ↦ True := by
    apply Value.Regular.list
    intro item hitem
    rcases List.mem_pair.mp hitem with rfl | rfl
    · exact .moment newYear
    · exact .text rfl
  refine ⟨hv, nofun, rfl, rfl, (validate_single_iff_literal hv nofun rfl rfl).1.mpr ⟨?_, rfl⟩⟩
  rfl

theorem regular_nested (depth : Nat) : (nested depth).Regular fun _ ↦ True := by
  induction depth with
  | zero => exact .list fun _ hmem ↦ absurd hmem List.not_mem_nil
  | succ depth ih => exact .list fun item hmem ↦ List.mem_singleton.mp hmem ▸ ih

/-- A literal that the field of its type refuses in a record. -/
theorem validate_single_nested :
    let type := ColumnType.primitive .json
    let v := nested 255
    v.Regular (fun _ ↦ True) ∧ v ≠ .null ∧ Literal.mismatch? type v = none ∧
      ¬∃ result, (soleSchema type).validate [(.text (soleField type).name, v)] = .ok result := by
  intro type v
  have hread : Literal.read type v = .ok (nestedJson 255) := readScalar_nested 255
  refine ⟨regular_nested 255, nested_ne_null 255, mismatch?_eq_none_iff.mpr ⟨_, hread⟩,
    fun hfound ↦ ?_⟩
  obtain ⟨-, hfits⟩ :=
    exists_field_check_iff.mp ((exists_validate_single_iff (f := soleField type) rfl v).mp hfound)
  exact absurd ((fits_nested 255).mp hfits) (by decide)

end Validation

end EntityCompiler
