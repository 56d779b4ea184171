import EntityCompiler.Proofs.Calendar.Universal
import EntityCompiler.Proofs.Entity.WellFormed
import EntityCompiler.Sql.Generator

/-!
# Rendering DDL texts

When an accepted entity has a DDL text.  Every column type and every literal can be written in every
dialect, save for one case: the dialect that moves dates to universal time has no literal for a date
that it cannot read, or that leaves the calendar on the way.
-/

namespace EntityCompiler

/-- Whether a kept literal that is a date is read, as a moment that universal time does not move out of the
calendar. -/
def Literal.StaysInCalendar (type : ColumnType) (value : Json) : Prop :=
  type = .primitive .date → ∀ text, value = .text text →
    ∃ t, Instant.read text = .ok t ∧ ¬t.LeavesCalendar

theorem Literal.staysInCalendar_text_iff {text : String} {t : Moment}
    (h : Instant.read text = .ok t) :
    StaysInCalendar (.primitive .date) (.text text) ↔ ¬t.LeavesCalendar := by
  refine ⟨fun hstays ↦ ?_, fun hstays _ other hother ↦ ?_⟩
  · obtain ⟨s, hs, hcalendar⟩ := hstays rfl text rfl
    exact Except.ok.inj (h.symm.trans hs) ▸ hcalendar
  · obtain rfl := Json.text.inj hother
    exact ⟨t, h, hstays⟩

/-- Whether the default of a column, if it is a date, is read as a moment that universal time does not move
out of the calendar. -/
def Column.StaysInCalendar (c : Column) : Prop :=
  ∀ value, c.default = some value → Literal.StaysInCalendar c.type value

/-- Whether the defaults of an entity can be written in a dialect. -/
def Entity.RendersIn (e : Entity) (d : Sql.Dialect) : Prop :=
  d = .mysql → e.table = true → ∀ column ∈ e.storedColumns, column.2.StaysInCalendar

namespace Sql

variable {d : Dialect} {subject : Subject}

/-! ## Failures -/

/-- Why a text is not a date that is moved to universal time: it is not read, or it leaves the calendar. -/
def dateFailure? (text : String) : Option Failure :=
  match Instant.read text with
  | .error refusal => some (.instant refusal)
  | .ok t => if t.toUtc?.isSome then none else some .dateOutOfRange

/-- Why a dialect has no literal for what is kept of a default. -/
def defaultFailure? (d : Dialect) : ColumnType → Json → Option Failure
  | .primitive .date, .text text => if d = .mysql then dateFailure? text else none
  | _, _ => none

end Sql

/-- Why a dialect has no literal for the default of a column. -/
def Column.renderFailure? (c : Column) (d : Sql.Dialect) : Option Failure :=
  c.default.bind (Sql.defaultFailure? d c.type)

/-- Why an entity has no DDL text in a dialect: the failure of the first stored column of its table that has
one. -/
def Entity.renderFailure? (e : Entity) (d : Sql.Dialect) : Option Failure :=
  if e.table then e.storedColumns.findSome? fun column ↦ column.2.renderFailure? d else none

namespace Sql

theorem dateFailure?_eq_none_iff {text : String} :
    dateFailure? text = none ↔ ∃ t, Instant.read text = .ok t ∧ ¬t.LeavesCalendar := by
  unfold dateFailure?
  cases Instant.read text with
  | error refusal => simp
  | ok t =>
    simp only [Except.ok.injEq, exists_eq_left', ← Moment.toUtc?_eq_none_iff]
    cases t.toUtc? <;> simp

theorem defaultFailure?_eq_none_iff {type : ColumnType} {value : Json} :
    defaultFailure? d type value = none ↔ (d = .mysql → Literal.StaysInCalendar type value) := by
  have hother (h : type = .primitive .date → ∀ text, value ≠ .text text) :
      Literal.StaysInCalendar type value := fun htype text htext ↦ absurd htext (h htype text)
  cases type with
  | arrayOf element => exact iff_of_true rfl fun _ ↦ hother nofun
  | primitive q =>
    cases q with
    | date =>
      cases value with
      | text text =>
        by_cases hd : d = .mysql
        · simp [defaultFailure?, hd, dateFailure?_eq_none_iff, Literal.StaysInCalendar]
        · simp [defaultFailure?, hd]
      | _ => exact iff_of_true rfl fun _ ↦ hother nofun
    | _ => exact iff_of_true rfl fun _ ↦ hother nofun

end Sql

theorem Column.renderFailure?_eq_none_iff {c : Column} {d : Sql.Dialect} :
    c.renderFailure? d = none ↔ (d = .mysql → c.StaysInCalendar) := by
  rw [renderFailure?, StaysInCalendar]
  cases c.default with
  | none => simp
  | some value => simp [Sql.defaultFailure?_eq_none_iff]

theorem Entity.renderFailure?_eq_none_iff {e : Entity} {d : Sql.Dialect} :
    e.renderFailure? d = none ↔ e.RendersIn d := by
  rw [renderFailure?, RendersIn]
  by_cases htable : e.table = true
  · rw [if_pos htable, List.findSome?_eq_none_iff]
    simp only [Column.renderFailure?_eq_none_iff, htable, forall_const]
    exact ⟨fun hall hd column hmem ↦ hall column hmem hd, fun hall column hmem hd ↦ hall hd column hmem⟩
  · simp [htable]

namespace Sql

variable {d : Dialect} {subject : Subject}

/-! ## Types and literals -/

/-- With arrays kept as JSON where a dialect has none, every column type has a name, whatever column it is
for. -/
theorem exists_renderType (d : Dialect) (type : ColumnType) :
    ∃ name, ∀ subject, renderType (.of d) true subject type = .ok name := by
  induction type with
  | primitive p => cases d <;> cases p <;> exact ⟨_, fun _ ↦ rfl⟩
  | arrayOf element ih =>
    cases d with
    | postgres =>
      obtain ⟨name, hname⟩ := ih
      refine ⟨name ++ "[]", fun subject ↦ ?_⟩
      change (renderType (.of .postgres) true subject element).map (· ++ "[]") = _
      rw [hname]
      rfl
    | sqlite => exact ⟨"TEXT", fun _ ↦ rfl⟩
    | mysql => exact ⟨"JSON", fun _ ↦ rfl⟩

theorem renderDate_failsWith (text : String) :
    FailsWith (if d = .mysql then dateFailure? text else none) (renderDate (.of d) text) := by
  cases d with
  | mysql =>
    intro failure
    simp only [Profile.of, Profile.mysql, renderDate, dateFailure?, if_true]
    cases Instant.read text with
    | error refusal => simp
    | ok t => cases hutc : t.toUtc? <;> simp [hutc]
  | _ => exact .of_ok rfl rfl

theorem renderScalar_failsWith {q : Primitive} {value : Json} (h : Literal.ScalarForm q value) :
    FailsWith (defaultFailure? d (.primitive q) value) (renderScalar (.of d) q value) := by
  cases q with
  | date =>
    cases value with
    | text text => exact renderDate_failsWith text
    | _ => exact absurd h id
  | json => exact .of_ok rfl rfl
  | string => cases value <;> first | exact absurd h id | exact .of_ok rfl rfl
  | number => cases value <;> first | exact absurd h id | exact .of_ok rfl rfl
  | integer => cases value <;> first | exact absurd h id | exact .of_ok rfl rfl
  | boolean => cases value <;> first | exact absurd h id | exact .of_ok rfl rfl

/-- The elements of array literals can be written where there are arrays. -/
theorem exists_renderElement {type : ColumnType} {value : Json} (h : Literal.Form type value) :
    ∃ literal, renderElement (.of .postgres) type value = .ok literal := by
  induction type generalizing value with
  | primitive q =>
    cases q <;> cases value <;> exact ⟨_, rfl⟩
  | arrayOf element ih =>
    cases value with
    | array items =>
      have hitem (item : Json) (hmem : item ∈ items) :
          FailsWith none (renderElement (.of .postgres) element item) :=
        (ih (h item hmem)).elim fun _ hliteral ↦ .of_ok rfl hliteral
      obtain ⟨parts, hparts⟩ := (FailsWith.mapM hitem).success (by simp)
      refine ⟨"ARRAY[" ++ ", ".intercalate parts ++ "]", ?_⟩
      rw [renderElement, hparts]
      rfl
    | _ => exact absurd h id

/-- The literal of a default can be written unless it is a date that fails. -/
theorem renderDefault_failsWith {type : ColumnType} {value : Json}
    (h : value = .null ∨ Literal.Form type value) :
    FailsWith (defaultFailure? d type value) (renderDefault (.of d) subject type value) := by
  rcases h with rfl | hform
  · have hnone : defaultFailure? d type .null = none := by
      cases type with
      | primitive q => cases q <;> rfl
      | arrayOf element => rfl
    refine .of_ok hnone (a := "NULL") ?_
    cases type <;> rfl
  · cases type with
    | primitive q =>
      have hscalar := renderScalar_failsWith (d := d) hform
      cases value with
      | null => exact .of_ok (by cases q <;> rfl) rfl
      | _ => exact hscalar
    | arrayOf element =>
      cases value with
      | array items =>
        cases d with
        | postgres =>
          obtain ⟨name, hname⟩ := exists_renderType .postgres (.arrayOf element)
          obtain ⟨body, hbody⟩ := exists_renderElement hform
          refine .of_ok rfl (a := body ++ "::" ++ name) ?_
          change (((renderType (.of .postgres) true subject (.arrayOf element)).mapError
            Failure.entity) >>= fun type ↦
              renderElement (.of .postgres) (.arrayOf element) (.array items) >>= fun body ↦
                .ok (body ++ "::" ++ type)) = _
          rw [hname, hbody]
          rfl
        | _ => exact .of_ok rfl rfl
      | _ => exact absurd hform id

/-! ## Columns and statements -/

namespace Generator

variable {g : Generator} {entity name : String} {spec : ColumnSpecification} {c : Column}

theorem defaultClause_failsWith (hprofile : g.profile = .of d)
    (h : spec.build entity name = .ok c) (owner label : String) :
    FailsWith (c.renderFailure? d) (g.defaultClause owner label c) := by
  unfold defaultClause Column.renderFailure?
  by_cases hnow : c.db.defaultNow = true ∧ c.type = .primitive .date
  · have hnone := ((ColumnSpecification.wellFormed_of_build h).2.1.defaultNow hnow.1).2
    rw [if_pos hnow, hnone]
    exact .of_ok rfl rfl
  · rw [if_neg hnow]
    cases hdefault : c.default with
    | none => exact .of_ok rfl rfl
    | some value =>
      have hform : value = .null ∨ Literal.Form c.type value :=
        (ColumnSpecification.form_default h hdefault).imp And.left And.right
      rw [hprofile]
      exact (renderDefault_failsWith hform).map _

theorem columnDefinition_failsWith (hprofile : g.profile = .of d)
    (hfallback : g.jsonArrayFallback = true) (h : spec.build entity name = .ok c)
    (owner label : String) : FailsWith (c.renderFailure? d) (g.columnDefinition owner label c) := by
  obtain ⟨type, htype⟩ := exists_renderType d c.type
  unfold columnDefinition
  rw [hprofile, hfallback, htype]
  exact (defaultClause_failsWith hprofile h owner label).bind fun default ↦ ⟨_, rfl⟩

variable {v : Value} {e : Entity}

/-- The first stored column that has no definition decides the failure of the statement of a table. -/
theorem tableStatement?_failsWith_of {fails : String × Column → Option Failure}
    (h : ∀ column ∈ e.storedColumns,
      FailsWith (fails column) (g.columnDefinition e.name column.1 column.2)) :
    FailsWith (if e.table then e.storedColumns.findSome? fails else none) (g.tableStatement? e) := by
  unfold tableStatement?
  cases htable : e.table with
  | false => exact .of_ok rfl rfl
  | true =>
    by_cases hnone : e.storedColumns = []
    · rw [hnone]
      exact .of_ok rfl rfl
    · have hcolumns : FailsWith (e.storedColumns.findSome? fails)
          (g.columnDefinitions e.name e.storedColumns) := FailsWith.mapM h
      rw [if_pos rfl, if_neg (by simp [hnone])]
      exact hcolumns.bind fun definitions ↦ ⟨_, rfl⟩

theorem statements_failsWith_of {fails : String × Column → Option Failure}
    (h : ∀ column ∈ e.storedColumns,
      FailsWith (fails column) (g.columnDefinition e.name column.1 column.2)) :
    FailsWith (if e.table then e.storedColumns.findSome? fails else none) (g.statements e) := by
  refine (tableStatement?_failsWith_of h).bind fun table ↦ ?_
  cases table <;> exact ⟨_, rfl⟩

theorem storedColumns_failsWith (hprofile : g.profile = .of d)
    (hfallback : g.jsonArrayFallback = true) (h : Entity.build v = .ok e) :
    ∀ column ∈ e.storedColumns,
      FailsWith (column.2.renderFailure? d) (g.columnDefinition e.name column.1 column.2) := by
  intro column hmem
  obtain ⟨entity, spec, hspec⟩ := Validation.exists_build_of_mem h (List.mem_of_mem_filter hmem)
  exact columnDefinition_failsWith hprofile hfallback hspec e.name column.1

theorem tableStatement?_failsWith (hprofile : g.profile = .of d)
    (hfallback : g.jsonArrayFallback = true) (h : Entity.build v = .ok e) :
    FailsWith (e.renderFailure? d) (g.tableStatement? e) :=
  tableStatement?_failsWith_of (storedColumns_failsWith hprofile hfallback h)

theorem statements_failsWith (hprofile : g.profile = .of d)
    (hfallback : g.jsonArrayFallback = true) (h : Entity.build v = .ok e) :
    FailsWith (e.renderFailure? d) (g.statements e) :=
  statements_failsWith_of (storedColumns_failsWith hprofile hfallback h)

/-- A table with stored columns has a statement. -/
theorem exists_tableStatement_of_rendersIn (hprofile : g.profile = .of d)
    (hfallback : g.jsonArrayFallback = true) (h : Entity.build v = .ok e) (hrenders : e.RendersIn d)
    (htable : e.table = true) (hstored : e.storedColumns ≠ []) :
    ∃ text, g.tableStatement? e = .ok (some text) := by
  obtain ⟨statement, hstatement⟩ := (tableStatement?_failsWith hprofile hfallback h).success
    (Entity.renderFailure?_eq_none_iff.mpr hrenders)
  rw [hstatement]
  unfold tableStatement? at hstatement
  rw [if_neg (by simp [htable, hstored]), bind_eq_ok_iff] at hstatement
  obtain ⟨definitions, -, htext⟩ := hstatement
  exact ⟨_, congrArg Except.ok (Except.ok.inj htext).symm⟩

/-- An accepted entity has a DDL text unless a date among its defaults fails. -/
theorem render_failsWith (hprofile : g.profile = .of d) (hfallback : g.jsonArrayFallback = true)
    (h : Entity.build v = .ok e) : FailsWith (e.renderFailure? d) (g.render e) := by
  unfold render
  cases htable : e.table with
  | true =>
    refine (statements_failsWith hprofile hfallback h).bind fun statements ↦ ?_
    cases statements <;> exact ⟨_, rfl⟩
  | false =>
    have hnone : e.renderFailure? d = none := by rw [Entity.renderFailure?, htable]; rfl
    exact .of_ok hnone rfl

/-- Settings whose dialect and table naming are known have a generator. -/
theorem exists_resolve {settings : Settings} {dialect : Option Value} {naming : TableNaming}
    (hdialect : Dialect.resolve (dialect.getD settings.dialect) = .ok d)
    (hnaming : TableNaming.resolve settings.tableNaming = .ok naming) (schema : Option String) :
    ∃ g, resolve settings dialect schema = .ok g ∧ g.profile = .of d ∧
      g.jsonArrayFallback = settings.jsonArrayFallback := by
  unfold resolve
  rw [hdialect, hnaming]
  exact ⟨_, rfl, rfl, rfl⟩

/-- The generator for a dialect under the settings that nobody has changed. -/
theorem exists_resolve_named {name : String} (hdialect : Dialect.resolve (.text name) = .ok d) :
    ∃ g, resolve {} (some (.text name)) none = .ok g ∧ g.profile = .of d ∧
      g.jsonArrayFallback = true := by
  have hnaming : TableNaming.resolve ({} : Settings).tableNaming = .ok .entity := rfl
  exact @exists_resolve d {} (some (.text name)) .entity hdialect hnaming none

end Generator

/-! ## A table with one column -/

/-- The description of a table with one column of a given type, which has a default. -/
def tableColumn (type : Primitive) (default : Value) : Value :=
  .ofFields [("name", .text "Book"), ("table", .bool true), ("columns", .ofFields [("data",
    .ofFields [("type", .text type.name), ("default", default)])])]

/-- What `tableColumn` describes. -/
def tableSpecification (type : Primitive) (default : Value) : Specification where
  name := "Book"
  table := true
  columns := [("data", { type := .text type.name, default := some default })]

/-- The entity that `tableColumn` describes where `kept` is kept of the default. -/
def tableEntity (type : Primitive) (default : Value) (kept : Json) : Entity :=
  (tableSpecification type default).freeze
    [("data", { type := .primitive type, default := some kept })]

theorem build_tableColumn {type : Primitive} {default : Value} {kept : Json}
    (hread : Literal.readScalar type default = .ok kept) (hdefault : default ≠ .null)
    (hkept : kept.isWritable = true) :
    Entity.build (tableColumn type default) = .ok (tableEntity type default kept) := by
  have hspec : Specification.read (tableColumn type default) =
      .ok (tableSpecification type default) := by rfl
  exact Entity.build_eq_ok_iff.mpr
    ⟨_, hspec, Validation.build_single rfl rfl rfl hread hdefault hkept⟩

theorem build_tableColumn_nested (depth : Nat) :
    Entity.build (tableColumn .json (Validation.nested depth)) =
      .ok (tableEntity .json (Validation.nested depth) (Validation.nestedJson depth)) :=
  build_tableColumn (Validation.readScalar_nested depth) (Validation.nested_ne_null depth)
    (Validation.isWritable_nestedJson depth)

theorem renderFailure?_tableEntity (default : Value) (text : String) :
    (tableEntity .date default (.text text)).renderFailure? .mysql = dateFailure? text := by
  have hstored : (tableEntity .date default (.text text)).storedColumns =
      [("data", { type := .primitive .date, default := some (.text text) })] := by rfl
  have htable : (tableEntity .date default (.text text)).table = true := by rfl
  have hcolumn : Column.renderFailure? { type := .primitive .date, default := some (.text text) }
      .mysql = dateFailure? text := by rfl
  rw [Entity.renderFailure?, if_pos htable, hstored, List.findSome?_singleton, hcolumn]

end Sql

end EntityCompiler
