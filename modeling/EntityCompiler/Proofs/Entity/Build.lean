import EntityCompiler.Entity.Build
import EntityCompiler.Proofs.Json.Writable
import EntityCompiler.Proofs.Outcome

/-!
# Accepted specifications

What is known of a specification from which an entity is built: each step of the build has
succeeded, and the entity consists of the results of these steps.
-/

namespace EntityCompiler

/-! ## Columns -/

namespace ColumnSpecification

/-- A literal is kept if it is null where that is accepted or of the type of its column. -/
theorem buildLiteral_eq_ok_iff {entity name role : String} {type : ColumnType} {acceptsNull : Bool}
    {v : Value} {value : Json} :
    buildLiteral entity name role type acceptsNull v = .ok value ↔
      (v = .null ∧ acceptsNull = true ∧ value = .null) ∨
        (v ≠ .null ∧ Literal.read type v = .ok value) := by
  cases v with
  | null => cases acceptsNull <;> simp [buildLiteral, eq_comm]
  | _ => simp [buildLiteral, mapError_eq_ok_iff]

theorem buildLiteral?_eq_ok_iff {entity name role : String} {type : ColumnType} {acceptsNull : Bool}
    {given : Option Value} {kept : Option Json} :
    buildLiteral? entity name role type acceptsNull given = .ok kept ↔
      (given = none ∧ kept = none) ∨ ∃ v value, given = some v ∧ kept = some value ∧
        buildLiteral entity name role type acceptsNull v = .ok value := by
  cases given with
  | none => simp [buildLiteral?, eq_comm]
  | some v =>
    rw [buildLiteral?, map_eq_ok_iff]
    constructor
    · rintro ⟨value, hvalue, rfl⟩
      exact .inr ⟨v, value, rfl, rfl, hvalue⟩
    · rintro (⟨habsent, -⟩ | ⟨w, value, hgiven, rfl, hvalue⟩)
      · exact absurd habsent (Option.some_ne_none v)
      · obtain rfl := Option.some.inj hgiven
        exact ⟨value, hvalue, rfl⟩

/-- What the flags of a column ask of its type, default and null. -/
theorem checkFlags_eq_ok_iff {entity name : String} {spec : ColumnSpecification} {type : ColumnType}
    {default : Option Json} :
    checkFlags entity name spec type default = .ok () ↔
      (spec.db.defaultNow = true → type = .primitive .date ∧ default = none) ∧
        ¬(spec.db.primary = true ∧ spec.acceptsNull = true) := by
  unfold checkFlags
  by_cases hnow : spec.db.defaultNow = true
  · by_cases htype : type = .primitive .date
    · cases default <;> simp [hnow, htype, error_bind, pure, Except.pure]
    · simp [hnow, htype, error_bind]
  · simp [hnow, pure, Except.pure]

/-- The column with a parsed type and with the literals that are kept. -/
def freeze (spec : ColumnSpecification) (type : ColumnType) (default sample : Option Json) :
    Column where
  type := type
  optional := spec.optional
  nullable := spec.nullable
  default := default
  description := spec.description
  visibility := spec.visibility
  immutable := spec.immutable
  stored := spec.stored
  sample := sample
  db := spec.db

theorem build_eq_ok_iff {entity name : String} {spec : ColumnSpecification} {c : Column} :
    spec.build entity name = .ok c ↔ Naming.isColumnName name = true ∧
      ColumnType.parse spec.type = .ok c.type ∧
      buildLiteral? entity name "default" c.type spec.acceptsNull spec.default = .ok c.default ∧
      buildLiteral? entity name "example" c.type true spec.sample = .ok c.sample ∧
      checkFlags entity name spec c.type c.default = .ok () ∧
      c = spec.freeze c.type c.default c.sample := by
  unfold build
  by_cases hname : Naming.isColumnName name = true
  · simp only [hname, Bool.not_true, Bool.false_eq_true, if_false, true_and, bind_eq_ok_iff,
      mapError_eq_ok_iff]
    constructor
    · rintro ⟨type, htype, default, hdefault, sample, hsample, ⟨⟩, hflags, hcolumn⟩
      obtain rfl := Except.ok.inj hcolumn
      exact ⟨htype, hdefault, hsample, hflags, rfl⟩
    · rintro ⟨htype, hdefault, hsample, hflags, hcolumn⟩
      exact ⟨_, htype, _, hdefault, _, hsample, (), hflags, congrArg Except.ok hcolumn.symm⟩
  · simp [hname, error_bind]

end ColumnSpecification

/-! ## Canonical forms -/

/-- Whether the literals of a column can be written. -/
def Column.IsWritable (c : Column) : Prop :=
  ∀ value, c.default = some value ∨ c.sample = some value → value.isWritable = true

theorem ColumnType.isWritable_toJson (t : ColumnType) : t.toJson.isWritable = true := by
  induction t with
  | primitive p => rfl
  | arrayOf element ih => simpa [ColumnType.toJson] using ih

theorem Column.isWritable_toJson_iff {c : Column} : c.toJson.isWritable = true ↔ c.IsWritable := by
  have hmember (key : String) (value : Option Json) :
      (∀ member ∈ Json.optionalMember key value, member.2.isWritable = true) ↔
        ∀ found, value = some found → found.isWritable = true := by
    cases value <;> simp [Json.optionalMember]
  rw [Column.toJson, Json.isWritable_object_iff, List.forall_mem_append, List.forall_mem_append,
    hmember, hmember]
  simp [StorageFlags.toJson, ColumnType.isWritable_toJson, Column.IsWritable, or_imp, forall_and]

theorem ApiSettings.isWritable_toJson (settings : ApiSettings) :
    settings.toJson.isWritable = true := by
  simp [ApiSettings.toJson]

theorem DocsSettings.isWritable_toJson_iff {settings : DocsSettings} :
    settings.toJson.isWritable = true ↔
      ∀ shown ∈ settings.examples, shown.2.plain.isWritable = true := by
  simp only [DocsSettings.toJson, Json.isWritable_object_iff, List.forall_mem_cons, List.forall_mem_map]
  simp

/-- The canonical form can be written exactly if the examples and the literals can. -/
theorem Specification.isWritable_canonical_iff {spec : Specification}
    {columns : List (String × Column)} : (spec.canonical columns).isWritable = true ↔
      (∀ shown ∈ (spec.docs.getD {}).examples, shown.2.plain.isWritable = true) ∧
        ∀ column ∈ columns, column.2.IsWritable := by
  have hopenapi : (Json.ofOption ApiSettings.toJson spec.openapi).isWritable = true := by
    cases spec.openapi with
    | none => rfl
    | some settings => exact settings.isWritable_toJson
  have hdocs : (Json.ofOption DocsSettings.toJson spec.docs).isWritable = true ↔
      ∀ shown ∈ (spec.docs.getD {}).examples, shown.2.plain.isWritable = true := by
    cases spec.docs with
    | none => simp [Json.ofOption]
    | some docs => exact DocsSettings.isWritable_toJson_iff
  simp only [Specification.canonical, Json.isWritable_object_iff, List.forall_mem_cons, hopenapi,
    hdocs, Json.isWritable_array_iff, List.forall_mem_map, Column.isWritable_toJson_iff]
  simp

/-! ## Entities -/

namespace Specification

theorem buildColumns_eq_ok_iff {entity : String} {specs : List (String × ColumnSpecification)}
    {columns : List (String × Column)} :
    buildColumns entity specs = .ok columns ↔ List.Forall₂ (fun spec column ↦
      spec.1 = column.1 ∧ spec.2.build entity spec.1 = .ok column.2) specs columns := by
  induction specs generalizing columns with
  | nil => simp [buildColumns, eq_comm]
  | cons spec specs ih =>
    obtain ⟨name, spec⟩ := spec
    simp only [buildColumns, bind_eq_ok_iff, List.forall₂_cons_left_iff, ih]
    constructor
    · rintro ⟨column, hcolumn, columns, hcolumns, hall⟩
      obtain rfl := Except.ok.inj hall
      exact ⟨(name, column), columns, ⟨rfl, hcolumn⟩, hcolumns, rfl⟩
    · rintro ⟨⟨label, column⟩, columns, ⟨hlabel, hcolumn⟩, hcolumns, rfl⟩
      obtain rfl : name = label := hlabel
      exact ⟨column, hcolumn, columns, hcolumns, rfl⟩

theorem checkName_eq_ok_iff {given : Value} {name : String} (h : given.text? = some name) :
    checkName given = .ok () ↔ Naming.isPascalCase name = true := by
  by_cases hname : Naming.isPascalCase name = true <;> simp [checkName, h, hname]

theorem checkExamples_eq_ok_iff {spec : Specification} :
    checkExamples spec = .ok () ↔
      ∀ shown ∈ (spec.docs.getD {}).examples, shown.2.dumpFault? depthLimit = none := by
  rw [checkExamples, ← List.findSome?_eq_none_iff]
  cases (spec.docs.getD {}).examples.findSome? fun shown ↦ shown.2.dumpFault? depthLimit <;> simp

/-- The canonical form can be written if the examples can and no integer is too long. -/
theorem checkCanonical_eq_ok_iff {spec : Specification} {columns : List (String × Column)} :
    checkCanonical spec columns = .ok () ↔
      checkExamples spec = .ok () ∧ (spec.canonical columns).isWritable = true := by
  rw [checkCanonical, bind_eq_ok_iff]
  cases (spec.canonical columns).isWritable <;> simp [pure, Except.pure, Unique.exists_iff]

theorem build_eq_ok_iff {spec : Specification} {e : Entity} :
    spec.build = .ok e ↔ Naming.isPascalCase spec.name = true ∧ spec.columns ≠ [] ∧
      buildColumns spec.name spec.columns = .ok e.columns ∧
      checkCanonical spec e.columns = .ok () ∧
      e = spec.freeze e.columns := by
  unfold build
  by_cases hcolumns : spec.columns = []
  · simp [hcolumns, bind_eq_ok_iff]
  · have hnone : spec.columns.isEmpty = false := by simpa using hcolumns
    simp only [hnone, bind_eq_ok_iff, Bool.false_eq_true, if_false, ne_eq,
      hcolumns, not_false_eq_true, true_and]
    constructor
    · rintro ⟨⟨⟩, hname, columns, hbuilt, ⟨⟩, hcanonical, hentity⟩
      obtain rfl := Except.ok.inj hentity
      exact ⟨(checkName_eq_ok_iff rfl).mp hname, hbuilt, hcanonical, rfl⟩
    · rintro ⟨hname, hbuilt, hcanonical, hentity⟩
      exact ⟨(), (checkName_eq_ok_iff rfl).mpr hname, _, hbuilt, (), hcanonical,
        congrArg Except.ok hentity.symm⟩

end Specification

theorem Entity.build_eq_ok_iff {v : Value} {e : Entity} :
    Entity.build v = .ok e ↔ ∃ spec, Specification.read v = .ok spec ∧ spec.build = .ok e := by
  rw [Entity.build, bind_eq_ok_iff]

end EntityCompiler
