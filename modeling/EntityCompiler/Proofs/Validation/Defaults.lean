import EntityCompiler.Proofs.Validation.Fields
import EntityCompiler.Proofs.Validation.Literal

/-!
# Defaults in validated records

A record without some of its optional columns is accepted whenever the whole record is, provided that
validation accepts the defaults of the columns left out: their JSON values have no more levels than it
looks into, and the texts of their dates are read.  The result then has the value of each of these
defaults.
-/

namespace EntityCompiler

/-- The value that an absent column gets from what is kept of its default. -/
def Column.resolve? (c : Column) : Json → Option Value
  | .null => some .null
  | value => Literal.resolve? c.type value

/-- Whether validation accepts the default of a column, if it has one: its JSON values have no more levels
than are looked into, and the texts of its dates are read. -/
def Column.defaultFits (c : Column) : Bool :=
  c.default.all fun value ↦ Literal.fits c.type value && (c.resolve? value).isSome

theorem ColumnSpecification.acceptsNull_of_build {entity name : String} {spec : ColumnSpecification}
    {c : Column} (h : spec.build entity name = .ok c) : c.acceptsNull = spec.acceptsNull := by
  obtain ⟨-, -, -, -, -, hcolumn⟩ := build_eq_ok_iff.mp h
  rw [hcolumn]
  rfl

/-- What is kept of a default is null where that is accepted, or has the form for its type. -/
theorem ColumnSpecification.form_default {entity name : String} {spec : ColumnSpecification}
    {c : Column} (h : spec.build entity name = .ok c) {value : Json} (hdefault : c.default = some value) :
    (value = .null ∧ c.acceptsNull = true) ∨ (value ≠ .null ∧ Literal.Form c.type value) := by
  obtain ⟨-, -, hbuilt, -, -, -⟩ := build_eq_ok_iff.mp h
  rcases buildLiteral?_eq_ok_iff.mp hbuilt with ⟨-, hnone⟩ | ⟨v, found, -, hfound, hliteral⟩
  · simp [hdefault] at hnone
  · obtain rfl : value = found := by simpa [hdefault] using hfound
    rcases buildLiteral_eq_ok_iff.mp hliteral with ⟨-, hnull, hvalue⟩ | ⟨hv, hread⟩
    · exact .inl ⟨hvalue, (acceptsNull_of_build h).trans hnull⟩
    · exact .inr ⟨Literal.ne_null_of_read hread hv, Literal.form_of_read hread⟩

theorem Column.resolve?_of_ne_null {c : Column} {value : Json} (h : value ≠ .null) :
    c.resolve? value = Literal.resolve? c.type value := by
  cases value <;> first | rfl | exact absurd rfl h

namespace Validation

open Checked

/-! ## Fields -/

theorem toValue_eq_null_iff {value : Json} : value.toValue = .null ↔ value = .null := by
  cases value <;> simp [Json.toValue]

theorem check_eq_check_of_ne_null {f : Field} {v : Value} (h : v ≠ .null) :
    f.check v = f.node.check v := by
  cases v <;> first | rfl | exact absurd rfl h

theorem fits_null (type : ColumnType) : Literal.fits type .null = true := by
  cases type with
  | primitive p => cases p <;> rfl
  | arrayOf element => rfl

/-- A kept default passes the check of its field if it fits, and the outcome is its value. -/
theorem field_check_default_eq_accepted_iff {entity name : String} {spec : ColumnSpecification}
    {c : Column} (h : spec.build entity name = .ok c) {value : Json}
    (hdefault : c.default = some value) {w : Value} :
    (Field.of name c).check value.toValue = .accepted w ↔
      c.defaultFits = true ∧ c.resolve? value = some w := by
  have hfits : c.defaultFits = true ∧ c.resolve? value = some w ↔
      Literal.fits c.type value = true ∧ c.resolve? value = some w := by
    simp only [Column.defaultFits, hdefault, Option.all_some, Bool.and_eq_true]
    exact ⟨fun hall ↦ ⟨hall.1.1, hall.2⟩, fun hall ↦ ⟨⟨hall.1, by simp [hall.2]⟩, hall.2⟩⟩
  rw [hfits]
  rcases ColumnSpecification.form_default h hdefault with ⟨rfl, haccepts⟩ | ⟨hvalue, hform⟩
  · simp [Json.toValue, Field.check, Field.of, haccepts, fits_null, Column.resolve?]
  · rw [check_eq_check_of_ne_null (mt toValue_eq_null_iff.mp hvalue),
      Column.resolve?_of_ne_null hvalue]
    exact check_toValue_eq_accepted_iff hform

/-- A default that validation accepts has a value for the records without its column. -/
theorem exists_resolve?_of_defaultFits {c : Column} {value : Json} (hdefault : c.default = some value)
    (h : c.defaultFits = true) : ∃ w, c.resolve? value = some w := by
  simp only [Column.defaultFits, hdefault, Option.all_some, Bool.and_eq_true] at h
  exact Option.isSome_iff_exists.mp h.2

/-- Validation does not accept the text of a moment with seconds in its offset. -/
theorem defaultFits_of_seconds {c : Column} {t : Moment} (htype : c.type = .primitive .date)
    (hdefault : c.default = some (.text t.isoText)) (h : t.wholeMinutes = false) :
    c.defaultFits = false := by
  rw [Column.defaultFits, hdefault, Option.all_some, Column.resolve?_of_ne_null (by simp), htype,
    Literal.resolve?, Literal.resolveScalar?, Instant.read_isoText_of_seconds h]
  exact Bool.and_false _

/-! ## Records -/

/-- What a validated record has for a column: what the check makes of the value that is there, or the
value of the default. -/
def outcome? (name : String) (c : Column) (record : List (Value × Value)) : Option Value :=
  match Value.lookup? name record with
  | some v => ((Field.of name c).check v).toOption
  | none => c.default.bind c.resolve?

/-- Whether a column does not keep a record from being accepted. -/
def Admits (name : String) (c : Column) (record : List (Value × Value)) : Prop :=
  match Value.lookup? name record with
  | some v => ∃ w, (Field.of name c).check v = .accepted w
  | none => c.optional = true ∧ c.defaultFits = true

/-- The fields of a validated record. -/
def outcomes (e : Entity) (record : List (Value × Value)) : List (String × Value) :=
  e.columns.filterMap fun column ↦ (outcome? column.1 column.2 record).map (column.1, ·)

section Built

variable {entity name : String} {spec : ColumnSpecification} {c : Column}
  (h : spec.build entity name = .ok c) {record : List (Value × Value)}

include h

/-- The field of a column accepts a default that fits, and only such a one. -/
theorem accepts_iff_admits : (Field.of name c).Accepts record ↔ Admits name c record := by
  have hname : (Field.of name c).name = name := rfl
  rw [Field.Accepts, Admits, hname]
  cases Value.lookup? name record with
  | some v => rfl
  | none =>
    have hrequired : (Field.of name c).required = false ↔ c.optional = true := by
      simp [Field.of, Column.required]
    refine and_congr hrequired ?_
    change (∀ value, c.default = some value → _) ↔ _
    cases hkept : c.default with
    | none => simp [Column.defaultFits, hkept]
    | some value =>
      simp only [Option.some.injEq, forall_eq', field_check_default_eq_accepted_iff h hkept]
      exact ⟨fun ⟨_, hfits, _⟩ ↦ hfits, fun hfits ↦
        (exists_resolve?_of_defaultFits hkept hfits).imp fun _ hw ↦ ⟨hfits, hw⟩⟩

/-- A column that admits a record keeps of it what its field does. -/
theorem kept?_eq_outcome? (hadmits : Admits name c record) :
    (Field.of name c).kept? record = outcome? name c record := by
  have hname : (Field.of name c).name = name := rfl
  rw [Admits] at hadmits
  rw [Field.kept?, outcome?, hname]
  cases hfound : Value.lookup? name record with
  | some v => rfl
  | none =>
    rw [hfound] at hadmits
    change c.default.bind _ = _
    cases hkept : c.default with
    | none => rfl
    | some value =>
      obtain ⟨w, hw⟩ := exists_resolve?_of_defaultFits hkept hadmits.2
      have hcheck := (field_check_default_eq_accepted_iff h hkept).mpr ⟨hadmits.2, hw⟩
      rw [Option.bind_some, Option.bind_some, hcheck, hw, toOption]

end Built

/-- Every column of a built entity has been built from a specification. -/
theorem exists_build_of_mem {v : Value} {e : Entity} (h : Entity.build v = .ok e)
    {column : String × Column} (hmem : column ∈ e.columns) :
    ∃ entity spec, ColumnSpecification.build entity column.1 spec = .ok column.2 := by
  obtain ⟨spec, -, hbuild⟩ := Entity.build_eq_ok_iff.mp h
  obtain ⟨-, -, hcolumns, -, -⟩ := Specification.build_eq_ok_iff.mp hbuild
  have hall := Specification.buildColumns_eq_ok_iff.mp hcolumns
  clear hcolumns hbuild h
  generalize e.columns = columns at hmem hall
  generalize spec.columns = specs at hall
  induction hall with
  | nil => exact absurd hmem List.not_mem_nil
  | cons hcolumn _ ih =>
    rcases List.mem_cons.mp hmem with rfl | hrest
    · exact ⟨spec.name, _, hcolumn.1 ▸ hcolumn.2⟩
    · exact ih hrest

theorem fieldNames_full (e : Entity) : (Schema.full e).fieldNames = e.columnNames := by
  simp only [Schema.fieldNames, Schema.full, Schema.ofColumns, Entity.columnNames, List.map_map]
  rfl

/-- A record is accepted exactly when it has no other keys and each column admits it; the result then
has what each column makes of the record. -/
theorem validate_full_eq_ok_iff {v : Value} {e : Entity} (h : Entity.build v = .ok e)
    {record : List (Value × Value)} {result : List (String × Value)} :
    (Schema.full e).validate record = .ok result ↔
      (∀ entry ∈ record, ∃ column ∈ e.columns, entry.1.text? = some column.1) ∧
        (∀ column ∈ e.columns, Admits column.1 column.2 record) ∧ result = outcomes e record := by
  have haccepts : (∀ f ∈ (Schema.full e).fields, f.Accepts record) ↔
      ∀ column ∈ e.columns, Admits column.1 column.2 record := by
    refine List.forall_mem_map.trans (forall₂_congr fun column hmem ↦ ?_)
    obtain ⟨entity, spec, hcolumn⟩ := exists_build_of_mem h hmem
    exact accepts_iff_admits hcolumn
  have hkept (hadmits : ∀ column ∈ e.columns, Admits column.1 column.2 record) :
      (Schema.full e).kept record = outcomes e record := by
    change (e.columns.map _).filterMap _ = _
    rw [List.filterMap_map, outcomes]
    refine List.filterMap_congr fun column hmem ↦ ?_
    obtain ⟨entity, spec, hcolumn⟩ := exists_build_of_mem h hmem
    exact congrArg (Option.map (column.1, ·)) (kept?_eq_outcome? hcolumn (hadmits column hmem))
  rw [Schema.validate_eq_ok_iff rfl, fieldNames_full, haccepts]
  simp only [Entity.columnNames, List.mem_map, exists_exists_and_eq_and]
  refine and_congr_right fun _ ↦ and_congr_right fun hadmits ↦ ?_
  rw [hkept hadmits]

/-! ## Omissions -/

/-- A record without the entries under some keys. -/
def without (omitted : String → Bool) (record : List (Value × Value)) : List (Value × Value) :=
  record.filter fun entry ↦
    match entry.1.text? with
    | some key => !omitted key
    | none => true

theorem lookup?_without (omitted : String → Bool) (record : List (Value × Value)) (key : String) :
    Value.lookup? key (without omitted record) =
      if omitted key = true then none else Value.lookup? key record := by
  induction record with
  | nil => simp [without, Value.lookup?]
  | cons entry record ih =>
    obtain ⟨label, value⟩ := entry
    unfold without at ih ⊢
    cases hlabel : label.text? with
    | some k =>
      by_cases hk : k = key
      · subst hk
        cases homitted : omitted k <;> simp [Value.lookup?, hlabel, homitted, ih]
      · cases homitted : omitted k <;> simp [Value.lookup?, hlabel, hk, homitted, ih]
    | none => simpa [Value.lookup?, hlabel] using ih

theorem mem_of_mem_without {omitted : String → Bool} {record : List (Value × Value)}
    {entry : Value × Value} (h : entry ∈ without omitted record) : entry ∈ record :=
  List.mem_of_mem_filter h

/-- A column that may be left out admits a record without it if its default fits. -/
theorem admits_without_iff {name : String} {c : Column} {record : List (Value × Value)}
    {omitted : String → Bool} (h : Admits name c record)
    (homitted : omitted name = true → c.optional = true) :
    Admits name c (without omitted record) ↔
      (Value.lookup? name (without omitted record) = none → c.defaultFits = true) := by
  unfold Admits at h ⊢
  rw [lookup?_without]
  by_cases hname : omitted name = true
  · simp [hname, homitted hname]
  · rw [if_neg hname]
    cases hlookup : Value.lookup? name record with
    | some v =>
      rw [hlookup] at h
      simpa using h
    | none =>
      rw [hlookup] at h
      simp [h.1]

theorem mem_outcomes {e : Entity} {record : List (Value × Value)} {column : String × Column}
    (hmem : column ∈ e.columns) {w : Value} (h : outcome? column.1 column.2 record = some w) :
    (column.1, w) ∈ outcomes e record :=
  List.mem_filterMap.mpr ⟨column, hmem, by rw [h]; rfl⟩

/-- A column that makes nothing of a record is not in the result if its name is unique. -/
theorem notMem_outcomes {e : Entity} {record : List (Value × Value)} {column : String × Column}
    (hmem : column ∈ e.columns) (h : outcome? column.1 column.2 record = none)
    (hnames : e.columnNames.Nodup) : column.1 ∉ (outcomes e record).map (·.1) := by
  intro hname
  obtain ⟨⟨label, w⟩, hfound, hlabel⟩ := List.mem_map.mp hname
  obtain ⟨other, hother, hsome⟩ := List.mem_filterMap.mp hfound
  obtain ⟨found, houtcome, hpair⟩ := Option.map_eq_some_iff.mp hsome
  obtain ⟨hother', rfl⟩ := Prod.mk.inj hpair
  have hsame : other = column :=
    List.inj_on_of_nodup_map hnames hother hmem (hother'.trans hlabel)
  rw [hsame, h] at houtcome
  exact absurd houtcome.symm (Option.some_ne_none _)

/-- A record without some of its optional columns is accepted exactly when validation accepts the defaults
of the absent columns.  The result has the value of the default of each
absent column, and nothing for an absent column without one. -/
theorem validate_without {v : Value} {e : Entity} (hbuild : Entity.build v = .ok e)
    {record : List (Value × Value)} {result : List (String × Value)}
    (hrecord : (Schema.full e).validate record = .ok result) (omitted : String → Bool)
    (homitted : ∀ column ∈ e.columns, omitted column.1 = true → column.2.optional = true) :
    ((∃ filled, (Schema.full e).validate (without omitted record) = .ok filled) ↔
      ∀ column ∈ e.columns, Value.lookup? column.1 (without omitted record) = none →
        column.2.defaultFits = true) ∧
    ∀ filled, (Schema.full e).validate (without omitted record) = .ok filled →
      filled = outcomes e (without omitted record) ∧
      ∀ column ∈ e.columns, Value.lookup? column.1 (without omitted record) = none →
        (∀ value, column.2.default = some value →
          ∃ w, column.2.resolve? value = some w ∧ (column.1, w) ∈ filled) ∧
        (column.2.default = none → e.columnNames.Nodup → column.1 ∉ filled.map (·.1)) := by
  obtain ⟨hknown, hadmits, -⟩ := (validate_full_eq_ok_iff hbuild).mp hrecord
  have hcolumn {column : String × Column} (hmem : column ∈ e.columns) :=
    admits_without_iff (hadmits column hmem) (homitted column hmem)
  refine ⟨⟨?_, fun hfits ↦ ⟨outcomes e (without omitted record), ?_⟩⟩, fun filled hfilled ↦ ?_⟩
  · rintro ⟨filled, hfilled⟩ column hmem
    exact (hcolumn hmem).mp (((validate_full_eq_ok_iff hbuild).mp hfilled).2.1 column hmem)
  · exact (validate_full_eq_ok_iff hbuild).mpr ⟨fun entry hentry ↦
      hknown entry (mem_of_mem_without hentry), fun column hmem ↦
      (hcolumn hmem).mpr (hfits column hmem), rfl⟩
  · obtain ⟨-, -, rfl⟩ := (validate_full_eq_ok_iff hbuild).mp hfilled
    refine ⟨rfl, fun column hmem habsent ↦ ⟨fun value hdefault ↦ ?_, fun hdefault hnames ↦ ?_⟩⟩
    · have hadmitted := ((validate_full_eq_ok_iff hbuild).mp hfilled).2.1 column hmem
      rw [Admits, habsent] at hadmitted
      obtain ⟨w, hw⟩ := exists_resolve?_of_defaultFits hdefault hadmitted.2
      refine ⟨w, hw, mem_outcomes hmem ?_⟩
      rw [outcome?, habsent, hdefault]
      exact hw
    · refine notMem_outcomes hmem ?_ hnames
      rw [outcome?, habsent, hdefault]
      rfl

/-- The description of an entity with one optional column of a given type, which has a default. -/
def optionalColumn (type : Primitive) (default : Value) : Value :=
  .ofFields [("name", .text "Book"), ("columns", .ofFields [("data", .ofFields
    [("type", .text type.name), ("optional", .bool true), ("default", default)])])]

/-- What `optionalColumn` describes. -/
def optionalSpecification (type : Primitive) (default : Value) : Specification where
  name := "Book"
  columns := [("data", { type := .text type.name, optional := true, default := some default })]

/-- The entity that `optionalColumn` describes where `kept` is kept of the default. -/
def optionalEntity (type : Primitive) (default : Value) (kept : Json) : Entity :=
  (optionalSpecification type default).freeze
    [("data", { type := .primitive type, optional := true, default := some kept })]

/-- A specification of one column with a default is accepted with that default. -/
theorem build_column {spec : Specification} {column : String} {type : Primitive} {optional : Bool}
    {default : Value} {kept : Json} (hname : spec.name = "Book") (hdocs : spec.docs = none)
    (hcolumns : spec.columns =
      [(column, { type := .text type.name, optional := optional, default := some default })])
    (hcolumnName : Naming.isColumnName column = true)
    (hread : Literal.readScalar type default = .ok kept) (hdefault : default ≠ .null)
    (hkept : kept.isWritable = true) :
    spec.build = .ok (spec.freeze
      [(column, { type := .primitive type, optional := optional, default := some kept })]) := by
  have hpascal : Naming.isPascalCase spec.name = true := by
    rw [hname]
    decide
  have hparse : ColumnType.parse (.text type.name) = .ok (.primitive type) := by
    cases type <;> rfl
  have hliteral (role : String) : ColumnSpecification.buildLiteral spec.name column role
      (.primitive type) optional default = .ok kept :=
    ColumnSpecification.buildLiteral_eq_ok_iff.mpr (.inr ⟨hdefault, hread⟩)
  have hcolumn : ColumnSpecification.build spec.name column
      { type := .text type.name, optional := optional, default := some default } =
      .ok { type := .primitive type, optional := optional, default := some kept } := by
    refine ColumnSpecification.build_eq_ok_iff.mpr ⟨hcolumnName, hparse, ?_, rfl, ?_, rfl⟩
    · exact congrArg (Except.map some) (hliteral "default")
    · exact ColumnSpecification.checkFlags_eq_ok_iff.mpr
        ⟨fun h ↦ absurd h Bool.false_ne_true, fun h ↦ absurd h.1 Bool.false_ne_true⟩
  have hcanonical (columns : List (String × Column))
      (hwritable : ∀ column ∈ columns, column.2.IsWritable) :
      Specification.checkCanonical spec columns = .ok () := by
    rw [Specification.checkCanonical_eq_ok_iff, Specification.checkExamples_eq_ok_iff,
      Specification.isWritable_canonical_iff, hdocs]
    exact ⟨nofun, nofun, hwritable⟩
  refine Specification.build_eq_ok_iff.mpr ⟨hpascal, ?_, ?_, hcanonical _ ?_, rfl⟩
  · rw [hcolumns]
    exact List.cons_ne_nil _ _
  · rw [hcolumns]
    exact Specification.buildColumns_eq_ok_iff.mpr (.cons ⟨rfl, hcolumn⟩ .nil)
  · refine List.forall_mem_singleton.mpr fun value hvalue ↦ ?_
    obtain rfl := Option.some.inj (hvalue.resolve_right nofun)
    exact hkept

theorem build_single {spec : Specification} {type : Primitive} {optional : Bool} {default : Value}
    {kept : Json} (hname : spec.name = "Book") (hdocs : spec.docs = none)
    (hcolumns : spec.columns =
      [("data", { type := .text type.name, optional := optional, default := some default })])
    (hread : Literal.readScalar type default = .ok kept) (hdefault : default ≠ .null)
    (hkept : kept.isWritable = true) :
    spec.build = .ok (spec.freeze
      [("data", { type := .primitive type, optional := optional, default := some kept })]) :=
  build_column hname hdocs hcolumns (by decide) hread hdefault hkept

theorem build_optionalColumn {type : Primitive} {default : Value} {kept : Json}
    (hread : Literal.readScalar type default = .ok kept) (hdefault : default ≠ .null)
    (hkept : kept.isWritable = true) :
    Entity.build (optionalColumn type default) = .ok (optionalEntity type default kept) := by
  have hspec : Specification.read (optionalColumn type default) =
      .ok (optionalSpecification type default) := by rfl
  exact Entity.build_eq_ok_iff.mpr ⟨_, hspec, build_single rfl rfl rfl hread hdefault hkept⟩

/-- The first moment of 2026. -/
def newYear : Moment := ⟨⟨2026, 1, 1, by decide, by decide, by decide⟩, Clock.midnight, none⟩

/-- The same date and time on a clock that is an hour and half a minute ahead of universal time. -/
def halfMinute : Moment := { newYear with offset := some ⟨3630000000, by decide⟩ }

theorem validate_without_newYear :
    let e := optionalEntity .date (.moment newYear) (.text newYear.isoText)
    let record : List (Value × Value) := [(.text "data", .text "2027-01-01")]
    Entity.build (optionalColumn .date (.moment newYear)) = .ok e ∧
      (∃ result, (Schema.full e).validate record = .ok result) ∧
      (∀ column ∈ e.columns, column.2.optional = true) ∧
      ∃ filled, (Schema.full e).validate (without (· = "data") record) = .ok filled ∧
        ("data", .moment newYear) ∈ filled := by
  intro e record
  have hbuild : Entity.build (optionalColumn .date (.moment newYear)) = .ok e :=
    build_optionalColumn rfl (by simp) rfl
  have hoptional : ∀ column ∈ e.columns, column.2.optional = true := by
    simp [e, optionalEntity, Specification.freeze]
  obtain ⟨result, hrecord⟩ : ∃ result, (Schema.full e).validate record = .ok result := ⟨_, rfl⟩
  obtain ⟨haccepted, hresult⟩ := validate_without hbuild hrecord (· = "data")
    fun column hmem _ ↦ hoptional column hmem
  obtain ⟨filled, hfilled⟩ := haccepted.mpr fun column hmem _ ↦ by
    obtain rfl := List.mem_singleton.mp hmem
    rfl
  obtain ⟨-, hcolumns⟩ := hresult filled hfilled
  obtain ⟨w, hw, hmem⟩ := (hcolumns _ List.mem_cons_self rfl).1 _ rfl
  have hmoment : w = .moment newYear := by
    simpa [Column.resolve?, Literal.resolve?, Literal.resolveScalar?,
      Instant.read_isoText (t := newYear) rfl] using hw.symm
  exact ⟨hbuild, ⟨result, hrecord⟩, hoptional, filled, hfilled, hmoment ▸ hmem⟩

/-- Lists one inside the other. -/
def nested : Nat → Value
  | 0 => .list []
  | depth + 1 => .list [nested depth]

def nestedJson : Nat → Json
  | 0 => .array []
  | depth + 1 => .array [nestedJson depth]

theorem nested_ne_null (depth : Nat) : nested depth ≠ .null := by
  cases depth <;> simp [nested]

theorem toJson?_nested (depth : Nat) : (nested depth).toJson? = some (nestedJson depth) := by
  induction depth with
  | zero => rfl
  | succ depth ih => simp [nested, nestedJson, Value.toJson?, Value.itemsToJson?, ih]

theorem readScalar_nested (depth : Nat) :
    Literal.readScalar .json (nested depth) = .ok (nestedJson depth) := by
  rw [Literal.readScalar, toJson?_nested]

theorem isWritable_nestedJson (depth : Nat) : (nestedJson depth).isWritable = true := by
  induction depth with
  | zero => rfl
  | succ depth ih => simpa [nestedJson] using ih

theorem depth_nested (depth : Nat) : (nested depth).depth = depth + 1 := by
  induction depth with
  | zero => rfl
  | succ depth ih => simp [nested, Value.depth, Value.itemsDepth, ih]

theorem depth_nestedJson (depth : Nat) : (nestedJson depth).depth = depth + 1 := by
  induction depth with
  | zero => rfl
  | succ depth ih =>
    rw [Json.depth] at ih
    simp [Json.depth, nestedJson, Json.toValue, jsonItems, Value.depth, Value.itemsDepth, ih]

theorem build_optionalColumn_nested (depth : Nat) :
    Entity.build (optionalColumn .json (nested depth)) =
      .ok (optionalEntity .json (nested depth) (nestedJson depth)) :=
  build_optionalColumn (readScalar_nested depth) (nested_ne_null depth) (isWritable_nestedJson depth)

theorem depth_le_of_defaultFits {c : Column} {kept : Json} (htype : c.type = .primitive .json)
    (hdefault : c.default = some kept) (h : c.defaultFits = true) : kept.depth ≤ depthLimit := by
  simp only [Column.defaultFits, hdefault, htype, Option.all_some, Bool.and_eq_true] at h
  exact of_decide_eq_true h.1

theorem depth_le_of_validate {default : Value} {kept : Json} {filled : List (String × Value)}
    (hbuild : Entity.build (optionalColumn .json default) = .ok (optionalEntity .json default kept))
    (h : (Schema.full (optionalEntity .json default kept)).validate [] = .ok filled) :
    kept.depth ≤ depthLimit := by
  obtain ⟨-, hadmits, -⟩ := (validate_full_eq_ok_iff hbuild).mp h
  exact depth_le_of_defaultFits rfl rfl (hadmits _ List.mem_cons_self).2

/-- A default with too many levels keeps records without its column from being accepted. -/
theorem validate_without_nested :
    let e := optionalEntity .json (nested 255) (nestedJson 255)
    let record : List (Value × Value) := [(.text "data", .null)]
    Entity.build (optionalColumn .json (nested 255)) = .ok e ∧
      (∃ result, (Schema.full e).validate record = .ok result) ∧
      (∀ column ∈ e.columns, column.2.optional = true) ∧
      ¬∃ filled, (Schema.full e).validate (without (· = "data") record) = .ok filled := by
  intro e record
  have hbuild : Entity.build (optionalColumn .json (nested 255)) = .ok e :=
    build_optionalColumn_nested 255
  refine ⟨hbuild, ⟨_, rfl⟩, by simp [e, optionalEntity, Specification.freeze], ?_⟩
  rintro ⟨filled, hfilled⟩
  have hlevels := depth_le_of_validate hbuild hfilled
  rw [depth_nestedJson] at hlevels
  exact absurd hlevels (by decide)

end Validation

end EntityCompiler
