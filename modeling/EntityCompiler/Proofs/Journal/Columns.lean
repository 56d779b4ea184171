import EntityCompiler.Proofs.Entity.Build
import EntityCompiler.Proofs.Journal.Balanced
import EntityCompiler.Proofs.Journal.Entries
import EntityCompiler.Proofs.Sql.Table

/-!
# Columns and their contexts

A build works on each column in a context of its own and leaves a record of every column that passes.  A
build that fails at a column has left one record for each column before it, in order.  The definitions in
the statement of a table are made in such contexts too, but leave no record.
-/

namespace EntityCompiler

/-! ## Records of columns -/

namespace Journal

/-- The context in which a column of an entity is checked, over that of the caller. -/
def checkedContext (caller : Context) (entity column : String) : Context where
  value
    | .entity => .text entity
    | .column => .text column
    | .operation => .text "build"
    | f => caller.value f
  extra := caller.extra

/-- The fields that a build sets for the check of a column. -/
def checkedFields (entity column : String) : List (Field × String) :=
  [(.entity, entity), (.column, column), (.operation, "build")]

/-- The record of a column that has passed its check in a context. -/
def checkedRecord (context : Context) (column : String × Column) : Record where
  logger := "entityforge.services.entity_builder"
  level := Level.debug
  message := "Checked column " ++ column.1 ++ ": " ++ column.2.type.describe
  data := enrich context (some .builder) []

theorem narrow_narrow_eq_checkedContext (caller : Context) (entity column : String) :
    (caller.narrow (.ofFields [(.entity, entity), (.operation, "build")])).narrow
      (.ofFields [(.column, column)]) = checkedContext caller entity column := by
  have hvalue (f : Field) : ((caller.narrow (.ofFields [(.entity, entity), (.operation, "build")])).narrow
      (.ofFields [(.column, column)])).value f = (checkedContext caller entity column).value f := by
    cases f <;> rfl
  exact congrArg (Context.mk · caller.extra) (funext hvalue)

theorem set?_checkedContext_of_mem {caller : Context} {entity column : String} {field : Field × String}
    (h : field ∈ checkedFields entity column) :
    (checkedContext caller entity column).set? field.1 = some (.text field.2) := by
  simp only [checkedFields, List.mem_cons, List.not_mem_nil, or_false] at h
  rcases h with rfl | rfl | rfl <;> rfl

/-- The record of a column has the fields of the context in which the column is checked, except where an
extra entry of the caller has taken the name of one of them. -/
theorem lookup?_checkedRecord (caller : Context) (entity : String) (column : String × Column)
    (f : Field) :
    Value.lookup? f.name (checkedRecord (checkedContext caller entity column.1) column).data =
      (Value.latest? f.name caller.extra).or ((checkedContext caller entity column.1).set? f) := by
  rw [checkedRecord, lookup?_enrich]
  exact Option.or_none

end Journal

/-! ## Builds that fail at a column -/

namespace Specification

/-- Whether the first columns of a specification pass, as many as a number says, and the next one fails
with an error. -/
structure FailsAt (spec : Specification) (k : Nat) (passed : List (String × Column))
    (error : EntityError) : Prop where
  name : Naming.isPascalCase spec.name = true
  before : buildColumns spec.name (spec.columns.take k) = .ok passed
  failed : ∃ column, spec.columns[k]? = some column ∧ column.2.build spec.name column.1 = .error error

variable {spec : Specification} {k : Nat} {passed : List (String × Column)} {error : EntityError}

theorem FailsAt.columns_ne_nil (h : spec.FailsAt k passed error) : spec.columns ≠ [] := by
  obtain ⟨column, hcolumn, -⟩ := h.failed
  intro hnil
  rw [hnil] at hcolumn
  cases hcolumn

/-- The columns that pass are the first ones, in their order. -/
theorem FailsAt.names (h : spec.FailsAt k passed error) :
    passed.map (·.1) = (spec.columns.take k).map (·.1) :=
  (map_eq_of_forall₂ ((buildColumns_eq_ok_iff.mp h.before).imp fun _ _ hcolumn ↦ hcolumn.1)).symm

theorem FailsAt.length_eq (h : spec.FailsAt k passed error) : passed.length = k := by
  obtain ⟨column, hcolumn, -⟩ := h.failed
  have hk : k < spec.columns.length := (List.getElem?_eq_some_iff.mp hcolumn).1
  rw [← (buildColumns_eq_ok_iff.mp h.before).length_eq, List.length_take_of_le hk.le]

/-- Columns that do not all pass fail at one of them. -/
theorem exists_before_of_buildColumns {entity : String} {specs : List (String × ColumnSpecification)}
    (h : buildColumns entity specs = .error error) :
    ∃ k passed, buildColumns entity (specs.take k) = .ok passed ∧
      ∃ column, specs[k]? = some column ∧ column.2.build entity column.1 = .error error := by
  induction specs with
  | nil => cases h
  | cons first specs ih =>
    obtain ⟨name, spec⟩ := first
    rcases bind_eq_error_iff.mp h with hfails | ⟨c, hc, hrest⟩
    · exact ⟨0, [], rfl, (name, spec), rfl, hfails⟩
    · rcases bind_eq_error_iff.mp hrest with hlater | ⟨_, _, hpure⟩
      · obtain ⟨k, passed, hpassed, hfailed⟩ := ih hlater
        refine ⟨k + 1, (name, c) :: passed, ?_, hfailed⟩
        rw [List.take_succ_cons, buildColumns, hc, hpassed]
        rfl
      · cases hpure

theorem exists_failsAt (hname : Naming.isPascalCase spec.name = true)
    (h : buildColumns spec.name spec.columns = .error error) : ∃ k passed, spec.FailsAt k passed error := by
  obtain ⟨k, passed, hpassed, hfailed⟩ := exists_before_of_buildColumns h
  exact ⟨k, passed, hname, hpassed, hfailed⟩

end Specification

namespace Recorded

open Journal

variable {spec : Specification} {k : Nat} {passed : List (String × Column)} {error : EntityError}

/-- The builds of a specification: of one that a value gives or of one that has been read before, with or
without a store, or only up to its fingerprint. -/
inductive Builds (spec : Specification) : {α : Type} → Recorded α → Prop
  | entity {v : Value} : Specification.read v = .ok spec → Builds spec (buildEntity v)
  | specification : Builds spec (buildSpecification spec)
  | storeEntity {v : Value} (store : Store) :
      Specification.read v = .ok spec → Builds spec (storeEntity store v)
  | storeSpecification (store : Store) : Builds spec (storeSpecification store spec)
  | prepare : Builds spec (prepare spec)

theorem run_buildColumn_of_ok {entity name : String} {spec : ColumnSpecification} {c : Column}
    (h : spec.build entity name = .ok c) (j : Journal) :
    (buildColumn entity name spec).run.run j =
      (.ok c, j.add (checkedRecord (j.context.narrow (.ofFields [(.column, name)])) (name, c))) := by
  rw [buildColumn, h]
  rfl

theorem run_buildColumn_of_error {entity name : String} {spec : ColumnSpecification}
    (h : spec.build entity name = .error error) (j : Journal) :
    (buildColumn entity name spec).run.run j = (.error (.entity error), j) := by
  rw [buildColumn, h]
  rfl

/-- Columns leave a record each, up to the first that fails. -/
theorem run_buildColumns_of_error {entity : String}
    {before : List (String × ColumnSpecification)} {failed : String × ColumnSpecification}
    (hpassed : Specification.buildColumns entity before = .ok passed)
    (hfailed : failed.2.build entity failed.1 = .error error)
    (rest : List (String × ColumnSpecification)) (j : Journal) :
    (buildColumns entity (before ++ failed :: rest)).run.run j = (.error (.entity error),
      { j with records := j.records ++ passed.map fun column ↦
        checkedRecord (j.context.narrow (.ofFields [(.column, column.1)])) column }) := by
  induction before generalizing j passed with
  | nil =>
    obtain rfl : passed = [] := (Except.ok.inj hpassed).symm
    rw [List.nil_append, buildColumns, run_bind_of_error (run_buildColumn_of_error hfailed j),
      List.map_nil, List.append_nil]
  | cons first before ih =>
    obtain ⟨name, spec⟩ := first
    obtain ⟨c, hc, hrest⟩ := bind_eq_ok_iff.mp hpassed
    obtain ⟨columns, hcolumns, heq⟩ := bind_eq_ok_iff.mp hrest
    obtain rfl : passed = (name, c) :: columns := (Except.ok.inj heq).symm
    rw [List.cons_append, buildColumns, run_bind_of_ok (run_buildColumn_of_ok hc j),
      run_bind_of_error (ih hcolumns _), add, List.append_assoc]
    rfl

/-- A build that fails at a column leaves one record for each column before it. -/
theorem run_prepare_of_failsAt (h : spec.FailsAt k passed error) (j : Journal) :
    (prepare spec).run.run j = (.error (.entity error),
      { j with records := j.records ++ passed.map fun column ↦
        checkedRecord (checkedContext j.context spec.name column.1) column }) := by
  obtain ⟨failed, hfailed, herror⟩ := h.failed
  obtain ⟨hk, hget⟩ := List.getElem?_eq_some_iff.mp hfailed
  have hcolumns : spec.columns.take k ++ failed :: spec.columns.drop (k + 1) = spec.columns := by
    rw [← hget, ← List.drop_eq_getElem_cons hk, List.take_append_drop]
  have hname : Specification.checkName (.text spec.name) = .ok () :=
    (Specification.checkName_eq_ok_iff rfl).mpr h.name
  have hsome : spec.columns.isEmpty = false := by simpa using h.columns_ne_nil
  have hbuild := run_buildColumns_of_error h.before herror (spec.columns.drop (k + 1))
    (j.enter (.ofFields [(.entity, spec.name), (.operation, "build")]))
  rw [hcolumns] at hbuild
  rw [prepare, ofBuild_bind_of_ok hname, hsome, if_neg Bool.false_ne_true,
    run_bind_of_error (run_within_of_run hbuild)]
  simp only [← narrow_narrow_eq_checkedContext]
  rfl

/-- Every build of a specification fails at a column as the specification does, and with the records of
the columns before. -/
theorem Builds.run_of_failsAt {α : Type} {build : Recorded α} (hbuild : Builds spec build)
    (h : spec.FailsAt k passed error) (j : Journal) :
    build.run.run j = (.error (.entity error),
      { j with records := j.records ++ passed.map fun column ↦
        checkedRecord (checkedContext j.context spec.name column.1) column }) := by
  have hprepare := run_prepare_of_failsAt h j
  cases hbuild with
  | entity hread =>
    rw [buildEntity, ofBuild_bind_of_ok hread]
    exact run_bind_of_error hprepare
  | specification => exact run_bind_of_error hprepare
  | storeEntity store hread =>
    rw [Recorded.storeEntity, ofBuild_bind_of_ok hread]
    exact run_bind_of_error hprepare
  | storeSpecification store => exact run_bind_of_error hprepare
  | prepare => exact hprepare

/-- What a build has left that fails at a column: a record for each column before it, in their order.
Each has the entity, the column and the operation in its data, and for the rest the fields of the caller's
context; an extra entry of the caller comes before the field that has its name. -/
structure LeavesPassed {α : Type} (build : Recorded α) (j : Journal) (spec : Specification) (k : Nat)
    (passed : List (String × Column)) (error : EntityError) : Prop where
  outcome : result build j = .error (.entity error)
  contexts : (after build j).contexts = j.contexts
  length : passed.length = k
  names : passed.map (·.1) = (spec.columns.take k).map (·.1)
  records : (after build j).records = j.records ++ passed.map fun column ↦
    checkedRecord (checkedContext j.context spec.name column.1) column
  carried : ∀ column ∈ passed, ∀ field ∈ checkedFields spec.name column.1,
    Value.lookup? field.1.name
        (checkedRecord (checkedContext j.context spec.name column.1) column).data =
      some ((Value.latest? field.1.name j.context.extra).getD (.text field.2))
  inherited : ∀ column ∈ passed, ∀ f ∈ [Field.dialect, Field.artifact],
    Value.lookup? f.name (checkedRecord (checkedContext j.context spec.name column.1) column).data =
      (Value.latest? f.name j.context.extra).or (j.context.set? f)

theorem Builds.leavesPassed {α : Type} {build : Recorded α} (hbuild : Builds spec build)
    (h : spec.FailsAt k passed error) (j : Journal) : LeavesPassed build j spec k passed error := by
  have hrun := hbuild.run_of_failsAt h j
  refine {
    outcome := congrArg Prod.fst hrun
    contexts := congrArg (·.2.contexts) hrun
    length := h.length_eq
    names := h.names
    records := congrArg (·.2.records) hrun
    carried := fun column _ field hfield ↦ ?_
    inherited := fun column _ f hfield ↦ ?_ }
  · rw [lookup?_checkedRecord, set?_checkedContext_of_mem hfield]
    cases Value.latest? field.1.name j.context.extra <;> rfl
  · rw [lookup?_checkedRecord]
    simp only [List.mem_cons, List.not_mem_nil, or_false] at hfield
    rcases hfield with rfl | rfl <;> rfl

/-! ## Artifacts made column by column -/

section Generation

variable {α β : Type} (g : Sql.Generator) (e : Entity)

theorem ofResult_bind (x : Except Failure α) (f : α → Except Failure β) :
    ofResult (x >>= f) = ofResult x >>= fun a ↦ ofResult (f a) := by
  cases x <;> rfl

theorem within_ofResult (change : Change) (x : Except Failure α) :
    within change (ofResult x) = ofResult x :=
  rfl

/-- Contexts that are open only for steps without a record do not matter. -/
theorem mapM_within_ofResult (change : α → Change) (f : α → Except Failure β) (items : List α) :
    (items.mapM fun a ↦ within (change a) (ofResult (f a))) = ofResult (items.mapM f) := by
  induction items with
  | nil => rfl
  | cons item items ih =>
    rw [List.mapM_cons, List.mapM_cons, ih, within_ofResult, ofResult_bind]
    congr 1
    funext b
    rw [ofResult_bind]
    rfl

/-- The definitions of columns, each made in the context of its column. -/
def columnDefinitions (entity : String) (columns : List (String × Column)) : Recorded (List String) :=
  columns.mapM fun column ↦
    within (.ofFields [(.column, column.1)]) (ofResult (g.columnDefinition entity column.1 column.2))

theorem columnDefinitions_eq (entity : String) (columns : List (String × Column)) :
    columnDefinitions g entity columns = ofResult (g.columnDefinitions entity columns) :=
  mapM_within_ofResult _ _ _

/-- The statement that creates the table of an entity, made column by column. -/
def tableStatement? : Recorded (Option String) :=
  if !e.table || e.storedColumns.isEmpty then
    return none
  else do
    let definitions ← columnDefinitions g e.name e.storedColumns
    return some (g.tableText e (definitions ++ g.primaryKeyClause e.storedColumns))

theorem tableStatement?_eq : tableStatement? g e = ofResult (g.tableStatement? e) := by
  unfold tableStatement? Sql.Generator.tableStatement?
  split
  · rfl
  · rw [ofResult_bind, columnDefinitions_eq]
    rfl

theorem balanced_tableStatement? : Balanced (tableStatement? g e) := by
  rw [tableStatement?_eq]
  exact .ofResult _

/-- The statements for an entity, with that of its table made column by column. -/
def statements : Recorded (List String) := do
  match ← tableStatement? g e with
  | some table => return table :: (g.indexStatements e ++ g.commentStatements e)
  | none => return []

theorem statements_eq : statements g e = ofResult (g.statements e) := by
  rw [statements, tableStatement?_eq, Sql.Generator.statements, ofResult_bind]
  congr 1
  funext table
  cases table <;> rfl

theorem balanced_statements : Balanced (statements g e) := by
  rw [statements_eq]
  exact .ofResult _

/-- The DDL text of an entity, with the statement of its table made column by column. -/
def renderByColumn : Recorded String :=
  within (.ofFields [(.entity, e.name), (.dialect, g.profile.name), (.artifact, "ddl")]) do
    if !e.table then
      log .ddl Level.debug ("Entity " ++ e.name ++ " is not a table; no DDL")
      return "-- Entity " ++ e.name ++ " is not mapped to a table."
    else
      let statements ← statements g e
      if statements.isEmpty then
        log .ddl Level.debug ("Entity " ++ e.name ++ " has no stored columns; no DDL")
        return "-- Entity " ++ e.name ++ " has no stored columns."
      else
        log .ddl Level.debug ("Generated " ++ Numeral.ofNat statements.length ++ " " ++
          g.profile.name ++ " statements for " ++ e.name)
        return "\n".intercalate statements

/-- The contexts of the columns do not matter for a DDL text and its records. -/
theorem renderByColumn_eq_render : renderByColumn g e = render g e := by
  rw [renderByColumn, render, statements_eq]
  congr 1
  unfold Sql.Generator.render
  cases htable : e.table with
  | false =>
    have hnone : g.statements e = .ok [] := by
      rw [Sql.Generator.statements, Sql.Generator.tableStatement?, htable]
      rfl
    rw [hnone]
    rfl
  | true =>
    cases hstatements : g.statements e with
    | error failure => rfl
    | ok statements => cases statements <;> rfl

/-- The record of the properties of a component, with the model of each property made in the context of its
column. -/
def logPropertiesByColumn : Recorded Unit :=
  within (.ofFields [(.entity, e.name), (.artifact, "component")]) do
    let properties ← e.publicColumns.mapM fun column ↦
      within (.ofFields [(.column, column.1)]) (ofResult (.ok (column.1, Api.columnModel column.2)))
    log .openapi Level.debug
      ("Component " ++ e.name ++ ": " ++ Numeral.ofNat properties.length ++ " properties (" ++
        Numeral.ofNat (e.columns.length - properties.length) ++ " hidden)")

theorem logPropertiesByColumn_eq_logProperties : logPropertiesByColumn e = logProperties e := by
  let models := e.publicColumns.map fun column ↦ (column.1, Api.columnModel column.2)
  have hproperties : e.publicColumns.mapM
      (fun column ↦ (.ok (column.1, Api.columnModel column.2) : Except Failure (String × Api.Model))) =
        .ok models :=
    List.mapM_pure
  have hlength : models.length = e.publicColumns.length := List.length_map _
  rw [logPropertiesByColumn, logProperties, mapM_within_ofResult, hproperties, ← hlength]
  rfl

end Generation

end Recorded

end EntityCompiler
