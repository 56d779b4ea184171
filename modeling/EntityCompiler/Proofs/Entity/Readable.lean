import EntityCompiler.Proofs.Validation.Literal

/-!
# Readable dates

The literals of an entity keep moments as texts.  The texts of moments with seconds in their offset are
not read again, so an entity has readable dates exactly when the moments in its specification have none.
-/

namespace EntityCompiler

open Literal

/-- Whether the texts of the dates in the default and the example of a column are read. -/
def Column.Readable (c : Column) : Prop :=
  ∀ value, c.default = some value ∨ c.sample = some value → value ≠ .null →
    readable c.type value = true

/-- Whether the texts of the dates in the literals of all columns are read. -/
def Entity.Readable (e : Entity) : Prop :=
  ∀ column ∈ e.columns, column.2.Readable

/-- Whether the moments in the default and the example of a column have no seconds in their offsets. -/
def ColumnSpecification.WholeMinutes (spec : ColumnSpecification) : Prop :=
  ∀ type, ColumnType.parse spec.type = .ok type →
    ∀ v, spec.default = some v ∨ spec.sample = some v → wholeMinutes type v = true

/-- Whether the moments in the literals of all columns have no seconds in their offsets. -/
def Specification.WholeMinutes (spec : Specification) : Prop :=
  ∀ column ∈ spec.columns, column.2.WholeMinutes

/-- Whether the moments in the literals that a value specifies have no seconds in their offsets. -/
def Value.WholeMinutes (v : Value) : Prop :=
  ∀ spec, Specification.read v = .ok spec → spec.WholeMinutes

namespace ColumnSpecification

theorem wholeMinutes_null (type : ColumnType) : wholeMinutes type .null = true := by
  cases type with
  | primitive p => cases p <;> rfl
  | arrayOf element => rfl

/-- What is kept of a literal, unless it is null, is readable if the moments of the literal have no
seconds in their offsets. -/
theorem readable_iff_of_buildLiteral? {entity name role : String} {type : ColumnType}
    {acceptsNull : Bool} {given : Option Value} {kept : Option Json}
    (h : buildLiteral? entity name role type acceptsNull given = .ok kept) :
    (∀ value, kept = some value → value ≠ .null → readable type value = true) ↔
      ∀ v, given = some v → wholeMinutes type v = true := by
  rcases buildLiteral?_eq_ok_iff.mp h with ⟨rfl, rfl⟩ | ⟨v, value, rfl, rfl, hbuild⟩
  · simp
  · simp only [Option.some.injEq, forall_eq']
    rcases buildLiteral_eq_ok_iff.mp hbuild with ⟨rfl, -, rfl⟩ | ⟨hnull, hread⟩
    · simp [wholeMinutes_null]
    · simp [ne_null_of_read hread hnull, readable_eq_wholeMinutes hread]

theorem readable_iff_of_build {entity name : String} {spec : ColumnSpecification} {c : Column}
    (h : spec.build entity name = .ok c) : c.Readable ↔ spec.WholeMinutes := by
  obtain ⟨-, htype, hdefault, hsample, -, -⟩ := build_eq_ok_iff.mp h
  have hboth : c.Readable ↔
      (∀ v, spec.default = some v → wholeMinutes c.type v = true) ∧
        ∀ v, spec.sample = some v → wholeMinutes c.type v = true := by
    rw [← readable_iff_of_buildLiteral? hdefault, ← readable_iff_of_buildLiteral? hsample]
    simp only [Column.Readable, or_imp, forall_and]
  rw [hboth]
  simp only [WholeMinutes, htype, Except.ok.injEq, forall_eq', or_imp, forall_and]

end ColumnSpecification

theorem Specification.readable_iff_of_build {spec : Specification} {e : Entity}
    (h : spec.build = .ok e) : e.Readable ↔ spec.WholeMinutes := by
  obtain ⟨-, -, hcolumns, -, -⟩ := build_eq_ok_iff.mp h
  have hbuilt := buildColumns_eq_ok_iff.mp hcolumns
  constructor
  · intro hreadable column hmem
    obtain ⟨c, hc, -, hcolumn⟩ := exists_of_forall₂_of_mem hbuilt.flip hmem
    exact (ColumnSpecification.readable_iff_of_build hcolumn).mp (hreadable c hc)
  · intro hwhole c hc
    obtain ⟨column, hmem, -, hcolumn⟩ := exists_of_forall₂_of_mem hbuilt hc
    exact (ColumnSpecification.readable_iff_of_build hcolumn).mpr (hwhole column hmem)

/-- A built entity has readable dates exactly when the moments in the literals of its specification have
no seconds in their offsets. -/
theorem Entity.readable_iff_of_build {v : Value} {e : Entity} (h : build v = .ok e) :
    e.Readable ↔ v.WholeMinutes := by
  obtain ⟨spec, hread, hspec⟩ := build_eq_ok_iff.mp h
  rw [Specification.readable_iff_of_build hspec]
  simp only [Value.WholeMinutes, hread, Except.ok.injEq, forall_eq']

end EntityCompiler
