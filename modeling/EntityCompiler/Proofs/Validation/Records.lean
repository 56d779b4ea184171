import EntityCompiler.Proofs.Validation.Compiled
import EntityCompiler.Proofs.Validation.Conformance

/-!
# Accepted records

The schema of an entity accepts exactly the records that have what it asks for and whose JSON values have
no more levels than are looked into.  The result has the fields that the record has or that have a
default, in their order.
-/

namespace EntityCompiler.Validation

open Checked

/-- Whether a record has what a schema asks for: no key without a field, every required field, and
under each field a value that conforms to it. -/
structure Schema.Conforms (s : Schema) (record : List (Value × Value)) : Prop where
  known : ∀ entry ∈ record, ∃ name ∈ s.fieldNames, entry.1.text? = some name
  complete : ∀ f ∈ s.fields, f.required = true → ∃ v, Value.lookup? f.name record = some v
  values : ∀ f ∈ s.fields, ∀ v, Value.lookup? f.name record = some v → f.Conforms v

/-- What a field has in a record: the value that is there, or else its default. -/
def Field.given? (f : Field) (record : List (Value × Value)) : Option Value :=
  (Value.lookup? f.name record).or (f.default.map Json.toValue)

/-- Whether the JSON values in a record, and in the defaults of the fields that it lacks, have no more
levels than are looked into, and these defaults conform themselves. -/
structure Schema.Fits (s : Schema) (record : List (Value × Value)) : Prop where
  levels : ∀ f ∈ s.fields, ∀ v, f.given? record = some v → f.node.fits v = true
  defaults : ∀ f ∈ s.fields, Value.lookup? f.name record = none → ∀ value, f.default = some value →
    f.Conforms value.toValue

/-- Validation accepts a default exactly when it conforms to its field and fits. -/
theorem defaultFits_iff {entity name : String} {spec : ColumnSpecification} {c : Column}
    (h : spec.build entity name = .ok c) {value : Json} (hdefault : c.default = some value) :
    c.defaultFits = true ↔ (Field.of name c).Conforms value.toValue ∧
      (Node.of c.type).fits value.toValue = true := by
  have hchecked := exists_field_check_iff (f := Field.of name c) (v := value.toValue)
  simp only [field_check_default_eq_accepted_iff h hdefault] at hchecked
  refine Iff.trans ⟨fun hfits ↦ ?_, fun ⟨_, hfits, _⟩ ↦ hfits⟩ hchecked
  exact (exists_resolve?_of_defaultFits hdefault hfits).imp fun _ hw ↦ ⟨hfits, hw⟩

/-- A column admits a record exactly when its field is filled as it has to be. -/
theorem admits_iff {entity name : String} {spec : ColumnSpecification} {c : Column}
    (h : spec.build entity name = .ok c) {record : List (Value × Value)} :
    Admits name c record ↔
      ((Field.of name c).required = true → ∃ v, Value.lookup? name record = some v) ∧
      (∀ v, Value.lookup? name record = some v → (Field.of name c).Conforms v) ∧
      (∀ v, (Field.of name c).given? record = some v → (Node.of c.type).fits v = true) ∧
      (Value.lookup? name record = none → ∀ value, c.default = some value →
        (Field.of name c).Conforms value.toValue) := by
  have hname : (Field.of name c).name = name := rfl
  have hnode : (Field.of name c).node = Node.of c.type := rfl
  have hdefault : (Field.of name c).default = c.default := rfl
  have hrequired : (Field.of name c).required = !c.optional := rfl
  rw [Admits, Field.given?, hname, hdefault, hrequired]
  cases hlookup : Value.lookup? name record with
  | some v => simp [exists_field_check_iff, hnode]
  | none =>
    cases hkept : c.default with
    | none => simp [Column.defaultFits, hkept]
    | some value => simp [defaultFits_iff h hkept, and_comm]

/-- A schema accepts exactly the records that conform and fit. -/
theorem exists_validate_full_iff {v : Value} {e : Entity} (h : Entity.build v = .ok e)
    (record : List (Value × Value)) :
    (∃ result, (Schema.full e).validate record = .ok result) ↔
      (Schema.full e).Conforms record ∧ (Schema.full e).Fits record := by
  have hknown : (∀ entry ∈ record, ∃ column ∈ e.columns, entry.1.text? = some column.1) ↔
      ∀ entry ∈ record, ∃ name ∈ (Schema.full e).fieldNames, entry.1.text? = some name := by
    simp [fieldNames_full, Entity.columnNames]
  have hfields (p : Field → Prop) : (∀ f ∈ (Schema.full e).fields, p f) ↔
      ∀ column ∈ e.columns, p (Field.of column.1 column.2) :=
    List.forall_mem_map
  have hadmits : (∀ column ∈ e.columns, Admits column.1 column.2 record) ↔
      ∀ f ∈ (Schema.full e).fields, (f.required = true → ∃ v, Value.lookup? f.name record = some v) ∧
        (∀ v, Value.lookup? f.name record = some v → f.Conforms v) ∧
        (∀ v, f.given? record = some v → f.node.fits v = true) ∧
        (Value.lookup? f.name record = none →
          ∀ value, f.default = some value → f.Conforms value.toValue) := by
    rw [hfields]
    refine forall₂_congr fun column hmem ↦ ?_
    obtain ⟨entity, spec, hcolumn⟩ := exists_build_of_mem h hmem
    exact admits_iff hcolumn
  constructor
  · rintro ⟨result, hresult⟩
    obtain ⟨hkeys, hcolumns, -⟩ := (validate_full_eq_ok_iff h).mp hresult
    have hall := hadmits.mp hcolumns
    exact ⟨⟨hknown.mp hkeys, fun f hf ↦ (hall f hf).1, fun f hf ↦ (hall f hf).2.1⟩,
      ⟨fun f hf ↦ (hall f hf).2.2.1, fun f hf ↦ (hall f hf).2.2.2⟩⟩
  · rintro ⟨hconforms, hfits⟩
    refine ⟨outcomes e record, (validate_full_eq_ok_iff h).mpr
      ⟨hknown.mpr hconforms.known, hadmits.mpr fun f hf ↦ ?_, rfl⟩⟩
    exact ⟨hconforms.complete f hf, hconforms.values f hf, hfits.levels f hf, hfits.defaults f hf⟩

/-- A column that admits a record has something in the result if the record or a default gives it. -/
theorem isSome_outcome? {name : String} {c : Column} {record : List (Value × Value)}
    (hadmits : Admits name c record) :
    (outcome? name c record).isSome =
      ((Value.lookup? name record).isSome || c.default.isSome) := by
  rw [Admits] at hadmits
  rw [outcome?]
  cases hlookup : Value.lookup? name record with
  | some v =>
    rw [hlookup] at hadmits
    obtain ⟨w, hw⟩ := hadmits
    simp [hw, toOption]
  | none =>
    cases hkept : c.default with
    | none => rfl
    | some value =>
      rw [hlookup] at hadmits
      obtain ⟨w, hw⟩ := exists_resolve?_of_defaultFits hkept hadmits.2
      simp [hw]

theorem map_fst_filterMap {α β : Type} {f : α → Option β} {name : α → String} {shown : α → Bool}
    {xs : List α} (h : ∀ x ∈ xs, (f x).isSome = shown x) :
    (xs.filterMap fun x ↦ (f x).map fun y ↦ (name x, y)).map (·.1) = (xs.filter shown).map name := by
  induction xs with
  | nil => rfl
  | cons x xs ih =>
    rw [List.forall_mem_cons] at h
    have hrest := ih h.2
    have hshown := h.1
    cases hx : f x with
    | none =>
      rw [hx] at hshown
      rw [List.filterMap_cons_none (by rw [hx]; rfl), List.filter_cons_of_neg (by simp [← hshown])]
      exact hrest
    | some y =>
      rw [hx] at hshown
      rw [List.filterMap_cons_some (by rw [hx]; rfl), List.filter_cons_of_pos (by simp [← hshown]),
        List.map_cons, List.map_cons, hrest]

/-- The keys of a validated record: the fields that it has or that have a default, in their order. -/
theorem map_fst_of_validate_full {v : Value} {e : Entity} (h : Entity.build v = .ok e)
    {record : List (Value × Value)} {result : List (String × Value)}
    (hresult : (Schema.full e).validate record = .ok result) :
    result.map (·.1) =
      ((Schema.full e).fields.filter fun f ↦ (f.given? record).isSome).map (·.name) := by
  obtain ⟨-, hadmits, rfl⟩ := (validate_full_eq_ok_iff h).mp hresult
  have hshown (column : String × Column) (hmem : column ∈ e.columns) :
      (outcome? column.1 column.2 record).isSome =
        ((Field.of column.1 column.2).given? record).isSome := by
    rw [isSome_outcome? (hadmits column hmem), Field.given?, Option.isSome_or,
      Option.isSome_map]
    rfl
  rw [outcomes, map_fst_filterMap hshown, Schema.full, Schema.ofColumns, List.filter_map,
    List.map_map]
  rfl

theorem isValid_iff {s : Schema} {record : List (Value × Value)} :
    s.isValid record = true ↔ ∃ result, s.validate record = .ok result := by
  rw [Schema.isValid, Schema.validate]
  cases s.check record <;> simp [isAccepted, toExcept]

/-- Records are accepted exactly when they conform to the schema, as do the defaults in use, and their JSON
values and these defaults have no more levels than are looked into.  The result then has the fields that
the record has or that have a default, in their order, and it does not depend on the names of the fields
that the compiled form gives the same. -/
theorem validate_full_iff_conforms {v : Value} {e : Entity} (hbuild : Entity.build v = .ok e)
    (record : List (Value × Value)) :
    ((∃ result, (Schema.full e).validate record = .ok result) ↔
      (Schema.full e).Conforms record ∧ (Schema.full e).Fits record) ∧
    ((Schema.full e).isValid record = true ↔
      ∃ result, (Schema.full e).validate record = .ok result) ∧
    (∀ result, (Schema.full e).validate record = .ok result →
      result.map (·.1) =
        ((Schema.full e).fields.filter fun f ↦ (f.given? record).isSome).map (·.name)) ∧
    (Schema.full e).run record = (Schema.full e).validate record :=
  ⟨exists_validate_full_iff hbuild record, isValid_iff,
    fun _ hresult ↦ map_fst_of_validate_full hbuild hresult, run_eq_validate _ _⟩

theorem validate_full_iff_conforms_newYear :
    let e := optionalEntity .date (.moment newYear) (.text newYear.isoText)
    Entity.build (optionalColumn .date (.moment newYear)) = .ok e ∧
      (∃ result, (Schema.full e).validate [] = .ok result ∧ result.map (·.1) = ["data"]) ∧
      ¬∃ result, (Schema.full e).validate [(.text "data", .text "2026-02-29")] = .ok result := by
  intro e
  have hbuild : Entity.build (optionalColumn .date (.moment newYear)) = .ok e :=
    build_optionalColumn rfl (by simp) rfl
  obtain ⟨hempty, -, hkeys, -⟩ := validate_full_iff_conforms hbuild []
  obtain ⟨hleap, -⟩ := validate_full_iff_conforms hbuild [(.text "data", .text "2026-02-29")]
  have hconforms : (Schema.full e).Conforms [] := by
    refine ⟨fun _ hmem ↦ absurd hmem List.not_mem_nil, fun f hf hrequired ↦ ?_, fun _ _ _ h ↦ nomatch h⟩
    obtain rfl := List.mem_singleton.mp hf
    exact nomatch hrequired
  have hfits : (Schema.full e).Fits [] := by
    refine ⟨fun f hf v _ ↦ ?_, fun f hf _ value hvalue ↦ ?_⟩ <;>
      obtain rfl := List.mem_singleton.mp hf
    · rfl
    · obtain rfl := Option.some.inj hvalue
      exact .inr ⟨nofun, .instant (Instant.read_isoText (t := newYear) rfl)⟩
  obtain ⟨result, hresult⟩ := hempty.mpr ⟨hconforms, hfits⟩
  refine ⟨hbuild, ⟨result, hresult, hkeys result hresult⟩, fun hfound ↦ ?_⟩
  have hvalue := (hleap.mp hfound).1.values _ List.mem_cons_self (.text "2026-02-29") rfl
  rcases hvalue with ⟨hnull, -⟩ | ⟨-, hnode⟩
  · exact nomatch hnull
  · cases hnode with
    | @instant _ t ht =>
      have hread : Instant.read "2026-02-29" = .error (.field "2026-02-29" .dayRange) := by rfl
      exact nomatch hread.symm.trans ht

theorem jsonLike_nested (depth : Nat) : JsonLike (nested depth) := by
  induction depth with
  | zero => exact .list fun _ hmem ↦ absurd hmem List.not_mem_nil
  | succ depth ih => exact .list fun item hmem ↦ List.mem_singleton.mp hmem ▸ ih

/-- A record that conforms and is refused for the levels of its JSON value. -/
theorem validate_full_nested :
    let e := optionalEntity .json (.bool true) (.bool true)
    let record := [(.text "data", nested 255)]
    Entity.build (optionalColumn .json (.bool true)) = .ok e ∧ (Schema.full e).Conforms record ∧
      ¬∃ result, (Schema.full e).validate record = .ok result := by
  intro e record
  have hbuild : Entity.build (optionalColumn .json (.bool true)) = .ok e :=
    build_optionalColumn rfl (by simp) rfl
  refine ⟨hbuild, ⟨?_, ?_, ?_⟩, fun hfound ↦ ?_⟩
  · exact List.forall_mem_singleton.mpr ⟨"data", List.mem_cons_self, rfl⟩
  · intro f hf _
    obtain rfl := List.mem_singleton.mp hf
    exact ⟨nested 255, rfl⟩
  · intro f hf v hv
    obtain rfl := List.mem_singleton.mp hf
    obtain rfl := Option.some.inj hv
    exact .inr ⟨nested_ne_null 255, .json (jsonLike_nested 255)⟩
  · have hfits := ((exists_validate_full_iff hbuild record).mp hfound).2
    exact absurd ((fits_nested 255).mp (hfits.levels _ List.mem_cons_self (nested 255) rfl)) (by decide)

end EntityCompiler.Validation
