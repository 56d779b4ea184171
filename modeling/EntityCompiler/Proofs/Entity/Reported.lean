import EntityCompiler.Proofs.Column.Reported
import EntityCompiler.Proofs.Specification.Described
import EntityCompiler.Proofs.Specification.Respelled
import EntityCompiler.Proofs.Store.Transparency
import EntityCompiler.Proofs.Validation.Defaults

/-!
# Reported errors

Which error the build of an entity reports, and which entity it gives if it reports none.  The
checks of an entity are made in a fixed order, and so are those of each of its columns.
-/

namespace EntityCompiler

open Value

/-! ## Checks -/

/-- The checks of an entity. -/
inductive EntityCheck where
  /-- A textual name is in Pascal case. -/
  | name
  | shape
  /-- There are columns. -/
  | inhabited
  | columns
  /-- The examples in the documentation have a plain form, which is part of the fingerprint. -/
  | examples
  /-- The integers in what the fingerprint is taken of are not too long to be written. -/
  | canonical

/-- The checks of an entity in the order in which they are made. -/
def EntityCheck.inOrder : List EntityCheck :=
  [.name, .shape, .inhabited, .columns, .examples, .canonical]

theorem EntityCheck.mem_inOrder (check : EntityCheck) : check ∈ inOrder := by
  cases check <;> simp [inOrder]

/-- The name that a dictionary gives as a text. -/
def Specification.textualName? (entries : List (Value × Value)) : Option String :=
  (lookup? "name" entries).bind text?

namespace Entity

/-- The errors that the checks of an entity give. -/
inductive Refused (entries : List (Value × Value)) : EntityCheck → EntityError → Prop
  | name {given : Value} {name : String} :
      lookup? "name" entries = some given → given.text? = some name →
      Naming.isPascalCase name = false → Refused entries .name (.entityName given)
  | shape {issues : List Issue} :
      (∀ spec : Specification, ¬spec.GivenBy entries) →
      Specification.ofValue (.dict entries) = .rejected issues →
      Refused entries .shape (.shape (Specification.textualName? entries) issues)
  | inhabited {spec : Specification} :
      spec.GivenBy entries → spec.columns = [] → Refused entries .inhabited (.noColumns spec.name)
  | columns {spec : Specification} {error : EntityError} :
      spec.GivenBy entries →
      FirstError (ColumnSpecification.Reported spec.name) spec.columns error →
      Refused entries .columns error
  | examples {spec : Specification} {error : EntityError} :
      spec.GivenBy entries →
      FirstError (fun shown fault ↦ shown.2.dumpFault? depthLimit = some fault)
        (spec.docs.getD {}).examples error →
      Refused entries .examples error
  | canonical {spec : Specification} {columns : List (String × Column)} :
      spec.GivenBy entries → List.Forall₂ Column.Follows columns spec.columns →
      ((∃ shown ∈ (spec.docs.getD {}).examples, ¬shown.2.plain.isWritable = true) ∨
        ∃ column ∈ columns, ¬column.2.IsWritable) →
      Refused entries .canonical .tooManyDigits

/-- An entity as it is specified: with the columns of the specification in their order, and with
everything else as `Specification.freeze` takes it over. -/
structure Follows (e : Entity) (spec : Specification) : Prop where
  columns : List.Forall₂ Column.Follows e.columns spec.columns
  rest : e = spec.freeze e.columns

end Entity

/-! ## Steps of a build -/

namespace Specification

variable {entries : List (Value × Value)} {spec : Specification}

theorem givenBy_unique {other : Specification} (h : spec.GivenBy entries)
    (hother : other.GivenBy entries) : spec = other :=
  Checked.accepted.inj ((ofValue_eq_accepted_iff.mpr h).symm.trans
    (ofValue_eq_accepted_iff.mpr hother))

/-- The errors of columns are those of the columns in their order. -/
theorem reports_buildColumns {entity : String} {columns : List (String × ColumnSpecification)} :
    Reports (ColumnSpecification.Reported entity) columns (buildColumns entity columns) := by
  induction columns with
  | nil => exact .of_ok rfl
  | cons column columns ih =>
    have hcolumn : Reports (ColumnSpecification.Reported entity) [column]
        (column.2.build entity column.1) := .of_check ColumnSpecification.reports_build
    exact hcolumn.bind fun _ _ ↦ ih.followed fun _ ↦ ⟨_, rfl⟩

theorem checkName_eq_error_iff {given : Value} {error : EntityError} :
    checkName given = .error error ↔ ∃ name, given.text? = some name ∧
      Naming.isPascalCase name = false ∧ error = .entityName given := by
  rw [checkName]
  cases given.text? with
  | none => simp
  | some name =>
    cases hpascal : Naming.isPascalCase name with
    | true => simp [hpascal]
    | false => simp [hpascal, eq_comm (a := EntityError.entityName given)]

theorem follows_of_buildColumns {entity : String} {columns : List (String × Column)}
    (h : buildColumns entity spec.columns = .ok columns) :
    List.Forall₂ Column.Follows columns spec.columns :=
  List.Forall₂.flip ((buildColumns_eq_ok_iff.mp h).imp fun _ _ hcolumn ↦
    ColumnSpecification.follows_of_build hcolumn.1 hcolumn.2)

theorem reports_name : Reports (Entity.Refused entries) [.name]
    (checkName ((lookup? "name" entries).getD .null)) := by
  refine .of_check fun error ↦ ?_
  rw [checkName_eq_error_iff]
  cases hgiven : lookup? "name" entries with
  | none =>
    refine ⟨nofun, ?_⟩
    rintro ⟨hsome, -⟩
    cases hgiven.symm.trans hsome
  | some given =>
    constructor
    · rintro ⟨name, hname, hpascal, rfl⟩
      exact .name hgiven hname hpascal
    · rintro ⟨hsome, hname, hpascal⟩
      obtain rfl := Option.some.inj (hgiven.symm.trans hsome)
      exact ⟨_, hname, hpascal, rfl⟩

theorem reports_shape : Reports (Entity.Refused entries) [.shape]
    (match ofValue (.dict entries) with
      | .accepted spec => .ok spec
      | .rejected issues => .error (.shape (textualName? entries) issues)) := by
  refine .of_check fun error ↦ ?_
  cases hvalue : ofValue (.dict entries) with
  | accepted spec =>
    refine ⟨nofun, ?_⟩
    rintro (_ | ⟨hnone, -⟩)
    exact absurd (ofValue_eq_accepted_iff.mp hvalue) (hnone spec)
  | rejected issues =>
    rw [Except.error.injEq]
    constructor
    · rintro rfl
      refine .shape (fun spec hspec ↦ ?_) hvalue
      rw [ofValue_eq_accepted_iff.mpr hspec] at hvalue
      cases hvalue
    · rintro (_ | ⟨-, hissues⟩)
      rw [hvalue, Checked.rejected.injEq] at hissues
      rw [hissues]

theorem reports_read : Reports (Entity.Refused entries) [.name, .shape] (read (.dict entries)) := by
  have hname : ((lookup? "name" entries).getD .null).text? = textualName? entries := by
    rw [textualName?]
    cases lookup? "name" entries <;> rfl
  have hsteps : read (.dict entries) =
      (checkName ((lookup? "name" entries).getD .null) >>= fun _ : Unit ↦
        match ofValue (.dict entries) with
        | .accepted spec => .ok spec
        | .rejected issues => .error (.shape (textualName? entries) issues)) := by
    rw [← hname]
    rfl
  rw [hsteps]
  exact reports_name.bind fun _ _ ↦ reports_shape

theorem checkExamples_eq_error_iff {error : EntityError} :
    checkExamples spec = .error error ↔
      FirstError (fun shown fault ↦ shown.2.dumpFault? depthLimit = some fault)
        (spec.docs.getD {}).examples error := by
  rw [firstError_iff_findSome? fun _ _ _ ↦ Iff.rfl, checkExamples]
  cases (spec.docs.getD {}).examples.findSome? fun shown ↦ shown.2.dumpFault? depthLimit <;> simp

section Given

variable (hspec : spec.GivenBy entries)

include hspec

theorem reports_inhabited : Reports (Entity.Refused entries) [.inhabited]
    (if spec.columns.isEmpty = true then .error (.noColumns spec.name) else .ok ()) := by
  refine .of_condition fun error ↦ ?_
  rw [List.isEmpty_iff]
  constructor
  · rintro (_ | _ | ⟨hother, hnone⟩)
    obtain rfl := givenBy_unique hspec hother
    exact ⟨hnone, rfl⟩
  · rintro ⟨hnone, rfl⟩
    exact .inhabited hspec hnone

theorem reports_columns :
    Reports (Entity.Refused entries) [.columns] (buildColumns spec.name spec.columns) := by
  refine .of_check fun error ↦ ?_
  rw [reports_buildColumns error]
  constructor
  · exact .columns hspec
  · rintro (_ | _ | _ | ⟨hother, hfirst⟩)
    obtain rfl := givenBy_unique hspec hother
    exact hfirst

theorem reports_examples : Reports (Entity.Refused entries) [.examples] (checkExamples spec) := by
  refine .of_check fun error ↦ ?_
  rw [checkExamples_eq_error_iff]
  constructor
  · exact .examples hspec
  · rintro (_ | _ | _ | _ | ⟨hother, hfirst⟩)
    obtain rfl := givenBy_unique hspec hother
    exact hfirst

theorem reports_canonical {columns : List (String × Column)}
    (hcolumns : List.Forall₂ Column.Follows columns spec.columns) :
    Reports (Entity.Refused entries) [.examples, .canonical] (checkCanonical spec columns) := by
  refine (reports_examples hspec).bind fun _ _ ↦ .of_condition fun error ↦ ?_
  have hlong : (!(spec.canonical columns).isWritable) = true ↔
      (∃ shown ∈ (spec.docs.getD {}).examples, ¬shown.2.plain.isWritable = true) ∨
        ∃ column ∈ columns, ¬column.2.IsWritable := by
    rw [Bool.not_eq_true', ← Bool.not_eq_true, isWritable_canonical_iff, not_and_or]
    push Not
    rfl
  rw [hlong]
  constructor
  · rintro (_ | _ | _ | _ | _ | ⟨hother, hfollows, hlarge⟩)
    obtain rfl := givenBy_unique hspec hother
    have hsame := List.left_unique_forall₂' @Column.follows_unique hfollows hcolumns
    exact ⟨hsame ▸ hlarge, rfl⟩
  · rintro ⟨hlarge, rfl⟩
    exact .canonical hspec hcolumns hlarge

/-- The errors of a specification with a name in Pascal case. -/
theorem reports_build (hname : Naming.isPascalCase spec.name = true) :
    Reports (Entity.Refused entries) [.inhabited, .columns, .examples, .canonical] spec.build := by
  have hsteps : spec.build =
      ((if spec.columns.isEmpty = true then .error (.noColumns spec.name) else .ok ()) >>=
        fun _ : Unit ↦ buildColumns spec.name spec.columns >>= fun columns ↦
        checkCanonical spec columns >>= fun _ ↦ .ok (spec.freeze columns)) := by
    unfold build
    rw [(checkName_eq_ok_iff rfl).mpr hname]
    cases spec.columns.isEmpty <;> rfl
  rw [hsteps]
  refine (reports_inhabited hspec).bind fun _ _ ↦ (reports_columns hspec).bind fun columns hbuilt ↦ ?_
  exact (reports_canonical hspec (follows_of_buildColumns hbuilt)).followed fun _ ↦ ⟨_, rfl⟩

end Given

theorem follows_of_build {e : Entity} (h : spec.build = .ok e) : e.Follows spec := by
  obtain ⟨-, -, hcolumns, -, he⟩ := build_eq_ok_iff.mp h
  exact ⟨follows_of_buildColumns hcolumns, he⟩

end Specification

/-! ## Builds -/

namespace Entity

variable {entries : List (Value × Value)}

/-- A dictionary is read as a specification only if it gives it, under a name in Pascal case. -/
theorem givenBy_of_read {spec : Specification} (h : Specification.read (.dict entries) = .ok spec) :
    spec.GivenBy entries ∧ Naming.isPascalCase spec.name = true := by
  obtain ⟨hname, hvalue⟩ := Specification.read_eq_ok_iff.mp h
  have hgiven := Specification.ofValue_eq_accepted_iff.mp hvalue
  obtain ⟨given, hgivenName, htext⟩ := Option.bind_eq_some_iff.mp hgiven.name
  have haccepted : Specification.checkName given = .ok () := by
    rwa [Specification.NameAccepted, hgivenName] at hname
  exact ⟨hgiven, (Specification.checkName_eq_ok_iff htext).mp haccepted⟩

theorem reports_build : Reports (Refused entries) EntityCheck.inOrder (build (.dict entries)) := by
  refine Specification.reports_read.bind fun spec hread ↦ ?_
  obtain ⟨hgiven, hname⟩ := givenBy_of_read hread
  exact Specification.reports_build hgiven hname

/-- An entity is built from a dictionary, or the error of the first check that refuses it is
reported.  An entity that is built is as it is specified. -/
theorem build_reports_firstError (entries : List (Value × Value)) :
    (∀ error, build (.dict entries) = .error error ↔
        FirstError (Refused entries) EntityCheck.inOrder error) ∧
      ((∃ e, build (.dict entries) = .ok e) ↔ ∀ check error, ¬Refused entries check error) ∧
      ∀ e, build (.dict entries) = .ok e →
        ∃ spec : Specification, spec.GivenBy entries ∧ e.Follows spec := by
  refine ⟨reports_build, ?_, fun e he ↦ ?_⟩
  · rw [reports_build.exists_ok_iff]
    exact forall_congr' fun check ↦ by simp [EntityCheck.mem_inOrder check]
  · obtain ⟨spec, hread, hbuild⟩ := build_eq_ok_iff.mp he
    exact ⟨spec, (givenBy_of_read hread).1, Specification.follows_of_build hbuild⟩

/-- The columns may stand under the other key. -/
theorem build_reports_firstError_titled :
    ∃ entries e, titled "fields" = .dict entries ∧ build (.dict entries) = .ok e ∧
      (∀ check error, ¬Refused entries check error) ∧
      ∃ spec : Specification, spec.GivenBy entries ∧ e.Follows spec := by
  have hbuild : build (titled "fields") =
      .ok (Specification.titled.freeze [("title", { type := .primitive .string })]) :=
    build_eq_ok_iff.mpr ⟨Specification.titled, rfl, rfl⟩
  obtain ⟨-, haccepted, hfollows⟩ := build_reports_firstError
    [(.text "name", .text "Book"),
      (.text "fields", .ofFields [("title", .ofFields [("type", .text "string")])])]
  exact ⟨_, _, rfl, hbuild, haccepted.mp ⟨_, hbuild⟩, hfollows _ hbuild⟩

/-- The example of a documented description is all that can be reported. -/
theorem check_eq_examples_of_refused {shown : Value} (hshown : shown.plain.isWritable = true)
    {entries : List (Value × Value)} (hentries : Store.documented shown = .dict entries)
    {check : EntityCheck} {error : EntityError}
    (h : Refused entries check error) : check = .examples := by
  have hread : Specification.read (.dict entries) = .ok (Store.documentedSpecification shown) := by
    rw [← hentries]
    rfl
  have hgiven := (givenBy_of_read hread).1
  have hpassed := Specification.reports_read.exists_ok_iff.mp ⟨_, hread⟩
  cases check with
  | name => exact absurd h (hpassed _ (by simp) error)
  | shape => exact absurd h (hpassed _ (by simp) error)
  | inhabited =>
    have hinhabited := (Specification.reports_inhabited hgiven).exists_ok_iff.mp ⟨_, rfl⟩
    exact absurd h (hinhabited _ (by simp) error)
  | columns =>
    have hcolumns := (Specification.reports_columns hgiven).exists_ok_iff.mp ⟨_, rfl⟩
    exact absurd h (hcolumns _ (by simp) error)
  | examples => rfl
  | canonical =>
    obtain _ | _ | _ | _ | _ | ⟨hother, hfollows, hlarge⟩ := h
    obtain rfl := Specification.givenBy_unique hgiven hother
    have hbuilt : Specification.buildColumns "Book" (Store.documentedSpecification shown).columns =
        .ok [("title", { type := .primitive .string })] := rfl
    obtain rfl := List.left_unique_forall₂' @Column.follows_unique hfollows
      (Specification.follows_of_buildColumns hbuilt)
    rcases hlarge with ⟨other, hmem, hlong⟩ | ⟨column, hmem, hlong⟩
    · obtain rfl := List.mem_singleton.mp hmem
      exact absurd hshown hlong
    · obtain rfl := List.mem_singleton.mp hmem
      exact absurd (fun _ hgiven ↦ by simp at hgiven) hlong

theorem dumpFault?_nested (levels : Nat) :
    (Validation.nested levels).dumpFault? levels = some .tooDeep := by
  induction levels with
  | zero => rfl
  | succ levels ih => rw [Validation.nested, dumpFault?, itemsFault?, ih, Option.some_or]

theorem isWritable_plain_nested (depth : Nat) : (Validation.nested depth).plain.isWritable = true := by
  induction depth with
  | zero => rfl
  | succ depth ih => simpa [Validation.nested, plain, plainItems] using ih

/-- An example with too many levels is reported although everything that is documented to be checked
is as it should be. -/
theorem build_reports_firstError_nested :
    ∃ entries, Store.documented (Validation.nested 255) = .dict entries ∧
      (∀ check error, check ≠ .examples → ¬Refused entries check error) ∧
      build (.dict entries) = .error .tooDeep := by
  obtain ⟨entries, hentries⟩ :
      ∃ entries, Store.documented (Validation.nested 255) = .dict entries := ⟨_, rfl⟩
  have hread : Specification.read (.dict entries) =
      .ok (Store.documentedSpecification (Validation.nested 255)) := by
    rw [← hentries]
    rfl
  have hother (check : EntityCheck) (hcheck : check ≠ .examples) (error : EntityError) :
      ¬Refused entries check error :=
    fun h ↦ hcheck (check_eq_examples_of_refused (isWritable_plain_nested 255) hentries h)
  have hexamples : Refused entries .examples .tooDeep :=
    .examples (givenBy_of_read hread).1 (.here (dumpFault?_nested 255))
  refine ⟨entries, hentries, fun check error hcheck ↦ hother check hcheck error,
    (reports_build _).mpr ?_⟩
  exact .later (hother .name nofun) <| .later (hother .shape nofun) <|
    .later (hother .inhabited nofun) <| .later (hother .columns nofun) <| .here hexamples

end Entity

end EntityCompiler
