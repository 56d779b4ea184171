import EntityCompiler.Proofs.Column.Frozen
import EntityCompiler.Proofs.Entity.Readable
import EntityCompiler.Proofs.Store.Transparency
import EntityCompiler.Proofs.Validation.Defaults

/-!
# Well-formed entities

What holds of every entity, whether it has just been built or is the answer of a store: names match
their patterns, literals are the frozen normal forms of admitted ones, and the flags of a column agree
with its type, its default and null.  The literals themselves are admitted again exactly when the moments
in the specification have no seconds in their offsets.
-/

namespace EntityCompiler

/-- Whether a column admits a literal: null where it is accepted, and otherwise a value of its type. -/
def Literal.Admitted (type : ColumnType) (acceptsNull : Bool) (v : Value) : Prop :=
  (v = .null ∧ acceptsNull = true) ∨ mismatch? type v = none

/-- What holds of the value that an entity holds for a literal: it is constant, and the frozen normal form
of an admitted literal. -/
structure Literal.Sound (type : ColumnType) (acceptsNull : Bool) (value : Json) : Prop where
  constant : value.held.Constant
  frozen : ∃ v, Admitted type acceptsNull v ∧ (normalize type v).freeze = value.held

/-- What holds of a column of an entity. -/
structure Column.WellFormed (c : Column) : Prop where
  default : ∀ value, c.default = some value → Literal.Sound c.type c.acceptsNull value
  sample : ∀ value, c.sample = some value → Literal.Sound c.type true value
  defaultNow : c.db.defaultNow = true → c.type = .primitive .date ∧ c.default = none
  primary : c.db.primary = true → c.optional = false ∧ c.nullable = false

/-- What holds of an entity. -/
structure Entity.WellFormed (e : Entity) : Prop where
  name : Naming.isPascalCase e.name = true
  inhabited : e.columns ≠ []
  columnNames : ∀ column ∈ e.columns, Naming.isColumnName column.1 = true
  columns : ∀ column ∈ e.columns, column.2.WellFormed

/-- Whether a column admits what it holds for its literals. -/
structure Column.AdmitsLiterals (c : Column) : Prop where
  default : ∀ value, c.default = some value →
    Literal.Admitted c.type c.acceptsNull value.held.value
  sample : ∀ value, c.sample = some value → Literal.Admitted c.type true value.held.value

/-- Whether all columns admit what they hold for their literals. -/
def Entity.AdmitsLiterals (e : Entity) : Prop :=
  ∀ column ∈ e.columns, column.2.AdmitsLiterals

/-! ## Builds -/

namespace ColumnSpecification

theorem held_value_eq_null_iff {value : Json} : value.held.value = .null ↔ value = .null := by
  rw [← Literal.toJson?_eq_some_null_iff, value.toJson?_held, Option.some.injEq]

/-- What is kept of a literal is sound, and admitted again if it is null or readable. -/
theorem sound_of_buildLiteral? {entity name role : String} {type : ColumnType} {acceptsNull : Bool}
    {given : Option Value} {value : Json}
    (h : buildLiteral? entity name role type acceptsNull given = .ok (some value)) :
    Literal.Sound type acceptsNull value ∧ (Literal.Admitted type acceptsNull value.held.value ↔
      (value ≠ .null → Literal.readable type value = true)) := by
  rcases buildLiteral?_eq_ok_iff.mp h with ⟨-, hnone⟩ | ⟨v, found, -, hfound, hliteral⟩
  · exact absurd hnone (Option.some_ne_none value)
  · obtain rfl := Option.some.inj hfound
    rcases buildLiteral_eq_ok_iff.mp hliteral with ⟨rfl, hnull, rfl⟩ | ⟨hv, hread⟩
    · refine ⟨⟨Json.null.constant_held, .null, .inl ⟨rfl, hnull⟩, ?_⟩, ?_⟩
      · cases type with
        | primitive p => cases p <;> rfl
        | arrayOf element => rfl
      · exact iff_of_true (.inl ⟨rfl, hnull⟩) fun hvalue ↦ absurd rfl hvalue
    · have hvalue := Literal.ne_null_of_read hread hv
      have hheld := mt held_value_eq_null_iff.mp hvalue
      refine ⟨⟨value.constant_held, v, .inr (by rw [Literal.mismatch?, hread]),
        Literal.freeze_normalize hread⟩, ?_⟩
      rw [Literal.Admitted, Literal.mismatch?_held_iff (Literal.form_of_read hread)]
      simp [hheld, hvalue]

theorem wellFormed_of_build {entity name : String} {spec : ColumnSpecification} {c : Column}
    (h : spec.build entity name = .ok c) :
    Naming.isColumnName name = true ∧ c.WellFormed ∧ (c.AdmitsLiterals ↔ c.Readable) := by
  have haccepts := acceptsNull_of_build h
  obtain ⟨hname, -, hdefault, hsample, hflags, hcolumn⟩ := build_eq_ok_iff.mp h
  obtain ⟨hnow, hprimary⟩ := checkFlags_eq_ok_iff.mp hflags
  have hdb : c.db = spec.db := congrArg Column.db hcolumn
  have hkeptDefault (value : Json) (hvalue : c.default = some value) :=
    sound_of_buildLiteral? (hvalue ▸ haccepts ▸ hdefault)
  have hkeptSample (value : Json) (hvalue : c.sample = some value) :=
    sound_of_buildLiteral? (hvalue ▸ hsample)
  refine ⟨hname, ⟨fun value hvalue ↦ (hkeptDefault value hvalue).1,
    fun value hvalue ↦ (hkeptSample value hvalue).1, fun h ↦ hnow (hdb ▸ h), fun h ↦ ?_⟩, ?_⟩
  · have hrefuses : c.acceptsNull = false := by
      rw [haccepts]
      exact Bool.eq_false_iff.mpr fun hnull ↦ hprimary ⟨hdb ▸ h, hnull⟩
    exact (Bool.or_eq_false_iff.mp hrefuses).symm
  · constructor
    · rintro hadmits value (hvalue | hvalue)
      · exact (hkeptDefault value hvalue).2.mp (hadmits.default value hvalue)
      · exact (hkeptSample value hvalue).2.mp (hadmits.sample value hvalue)
    · exact fun hreadable ↦ ⟨
        fun value hvalue ↦ (hkeptDefault value hvalue).2.mpr (hreadable value (.inl hvalue)),
        fun value hvalue ↦ (hkeptSample value hvalue).2.mpr (hreadable value (.inr hvalue))⟩

end ColumnSpecification

theorem Specification.wellFormed_of_build {spec : Specification} {e : Entity}
    (h : spec.build = .ok e) : e.WellFormed ∧ (e.AdmitsLiterals ↔ spec.WholeMinutes) := by
  rw [← Specification.readable_iff_of_build h]
  obtain ⟨hname, hcolumns, hbuilt, -, he⟩ := build_eq_ok_iff.mp h
  have hkept := buildColumns_eq_ok_iff.mp hbuilt
  have hcolumn (column : String × Column) (hmem : column ∈ e.columns) :
      Naming.isColumnName column.1 = true ∧ column.2.WellFormed ∧
        (column.2.AdmitsLiterals ↔ column.2.Readable) := by
    obtain ⟨given, -, hlabel, hgiven⟩ := exists_of_forall₂_of_mem hkept hmem
    exact hlabel ▸ ColumnSpecification.wellFormed_of_build hgiven
  refine ⟨⟨?_, ?_, fun column hmem ↦ (hcolumn column hmem).1,
    fun column hmem ↦ (hcolumn column hmem).2.1⟩,
    forall₂_congr fun column hmem ↦ (hcolumn column hmem).2.2⟩
  · rw [he]
    exact hname
  · rwa [← List.length_pos_iff, ← hkept.length_eq, List.length_pos_iff]

theorem Entity.wellFormed_of_build {v : Value} {e : Entity} (h : build v = .ok e) :
    e.WellFormed := by
  obtain ⟨spec, -, hspec⟩ := build_eq_ok_iff.mp h
  exact (Specification.wellFormed_of_build hspec).1

theorem Entity.admitsLiterals_iff_of_build {v : Value} {e : Entity} (h : build v = .ok e) :
    e.AdmitsLiterals ↔ v.WholeMinutes := by
  rw [← readable_iff_of_build h]
  obtain ⟨spec, -, hspec⟩ := build_eq_ok_iff.mp h
  rw [Specification.readable_iff_of_build hspec]
  exact (Specification.wellFormed_of_build hspec).2

/-! ## Answers of stores -/

namespace Store

/-- Whatever a store answers is the build of some value that it was asked for. -/
theorem exists_build_of_answer {s : Store} {S : Set Value} (hs : s.BuiltFrom S) {v : Value}
    (hv : v ∈ S) {stored : Stored} (h : (s.build v).1 = .ok stored) :
    ∃ w ∈ S, Entity.build w = .ok stored.entity := by
  cases hbuild : Entity.build v with
  | error error =>
    rw [build, hbuild] at h
    cases h
  | ok e =>
    obtain ⟨found, hanswer, hfound⟩ := build_fst_of_ok s hbuild
    obtain rfl := Except.ok.inj (hanswer.symm.trans h)
    rcases hfound with rfl | ⟨hmem, -⟩
    · exact ⟨v, hv, hbuild⟩
    · exact hs found hmem

end Store

/-- Every entity is well formed, whether it is built from a specification, from a value, or given back
by a store for a value after any history.  What it holds for its literals is admitted again exactly when
the moments in the literals of the specification have no seconds in their offsets. -/
theorem Entity.wellFormed :
    (∀ (spec : Specification) (e : Entity), spec.build = .ok e →
      e.WellFormed ∧ (e.AdmitsLiterals ↔ spec.WholeMinutes)) ∧
    (∀ (v : Value) (e : Entity), build v = .ok e →
      e.WellFormed ∧ (e.AdmitsLiterals ↔ v.WholeMinutes)) ∧
    ∀ (capacity : Int) (calls : List Store.Call) (v : Value) (stored : Stored),
      (((Store.ofCapacity capacity).run calls).build v).1 = .ok stored →
      stored.entity.WellFormed ∧
        ((∀ use ∈ calls, use.Within {v | v.WholeMinutes}) → v.WholeMinutes →
          stored.entity.AdmitsLiterals) := by
  refine ⟨fun spec e he ↦ Specification.wellFormed_of_build he,
    fun v e he ↦ ⟨wellFormed_of_build he, admitsLiterals_iff_of_build he⟩,
    fun capacity calls v stored hanswer ↦ ?_⟩
  have hbuilt {S : Set Value} (hwithin : ∀ use ∈ calls, use.Within S) (hv : v ∈ S) :
      ∃ w ∈ S, build w = .ok stored.entity :=
    Store.exists_build_of_answer
      (Store.builtFrom_run (Store.builtFrom_ofCapacity capacity S) hwithin) hv hanswer
  refine ⟨?_, fun hwithin hv ↦ ?_⟩
  · have hall : ∀ use ∈ calls, use.Within Set.univ := by
      intro use _
      cases use <;> trivial
    obtain ⟨w, -, hw⟩ := hbuilt hall (Set.mem_univ v)
    exact wellFormed_of_build hw
  · obtain ⟨w, hwhole, hw⟩ := hbuilt hwithin hv
    exact (admitsLiterals_iff_of_build hw).mpr hwhole

theorem Entity.wellFormed_newYear :
    let v := Validation.optionalColumn .date (.moment Validation.newYear)
    let e := Validation.optionalEntity .date (.moment Validation.newYear)
      (.text Validation.newYear.isoText)
    build v = .ok e ∧ e.WellFormed ∧ e.AdmitsLiterals ∧
      ∃ stored, (((Store.ofCapacity 1).run [.build v]).build v).1 = .ok stored ∧
        stored.entity.WellFormed ∧ stored.entity.AdmitsLiterals := by
  intro v e
  have hbuild : build v = .ok e := Validation.build_optionalColumn rfl (by simp) rfl
  have hwhole : v.WholeMinutes := by
    refine (readable_iff_of_build hbuild).mp fun column hmem value hvalue _ ↦ ?_
    obtain rfl := List.mem_singleton.mp hmem
    obtain rfl := Option.some.inj (hvalue.resolve_right nofun)
    exact Literal.readable_text_iff.mpr ⟨_, Instant.read_isoText (t := Validation.newYear) rfl⟩
  obtain ⟨-, hbuilt, hanswered⟩ := wellFormed
  obtain ⟨stored, hanswer, -⟩ := Store.build_fst_of_ok ((Store.ofCapacity 1).run [.build v]) hbuild
  obtain ⟨hwell, hadmits⟩ := hanswered 1 [.build v] v stored hanswer
  refine ⟨hbuild, (hbuilt v e hbuild).1, (hbuilt v e hbuild).2.mpr hwhole, stored, hanswer, hwell,
    hadmits (fun use hmem ↦ ?_) hwhole⟩
  obtain rfl := List.mem_singleton.mp hmem
  exact hwhole

end EntityCompiler
