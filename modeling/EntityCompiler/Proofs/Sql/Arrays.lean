import EntityCompiler.Proofs.Sql.Indexes

/-!
# Arrays without a representation

What happens to array columns when they are not to be kept as JSON.  A dialect with arrays of its own does
not care.  In any other dialect the first stored column of the tables that is an array, or has a default that
fails, decides the failure of all statements.  Tables without such columns have the statements that they
always have.
-/

namespace EntityCompiler

/-- The stored array columns of an entity that has a table, in order. -/
def Entity.storedArrays (e : Entity) : List (String × Column) :=
  if e.table then e.storedColumns.filter fun column ↦ column.2.type.isArray else []

/-- The stored array columns of the tables of several entities, each with its entity, in order. -/
def Entity.allStoredArrays (es : List Entity) : List (Entity × String × Column) :=
  es.flatMap fun e ↦ e.storedArrays.map fun column ↦ (e, column)

/-- The failure of a dialect that has no type for an array column. -/
def Sql.Dialect.refusal (d : Dialect) (e : Entity) (column : String × Column) : Failure :=
  .entity (.unsupportedType column.1 column.2.type.describe (d.name ++ " DDL") (some e.name))

/-- Why a dialect has no definition for a stored column of an entity: the column is an array, or its default
is a date that fails. -/
def Sql.Dialect.refusal? (d : Dialect) (e : Entity) (column : String × Column) : Option Failure :=
  if column.2.type.isArray then some (d.refusal e column) else column.2.renderFailure? d

/-- The first of these failures in the table of an entity. -/
def Entity.refusal? (e : Entity) (d : Sql.Dialect) : Option Failure :=
  if e.table then e.storedColumns.findSome? (d.refusal? e) else none

namespace Entity

variable {e : Entity} {es : List Entity} {column : String × Column}

theorem mem_storedArrays_iff : column ∈ e.storedArrays ↔
    e.table = true ∧ column ∈ e.storedColumns ∧ column.2.type.isArray = true := by
  unfold storedArrays
  cases e.table <;> simp

theorem storedArrays_eq_nil_iff : e.storedArrays = [] ↔
    (e.table = true → ∀ column ∈ e.storedColumns, column.2.type.isArray = false) := by
  rw [List.eq_nil_iff_forall_not_mem]
  simp only [mem_storedArrays_iff, not_and, Bool.not_eq_true]
  exact forall_comm

theorem allStoredArrays_eq_nil_iff : allStoredArrays es = [] ↔ ∀ e ∈ es, e.storedArrays = [] := by
  simp [allStoredArrays, List.flatMap_eq_nil_iff]

theorem allStoredArrays_ne_nil_iff : allStoredArrays es ≠ [] ↔
    ∃ e ∈ es, e.table = true ∧ ∃ column ∈ e.storedColumns, column.2.type.isArray = true := by
  rw [Ne, allStoredArrays_eq_nil_iff]
  simp [storedArrays_eq_nil_iff]

/-- If no date fails, the failure of a table is that of its first stored array column. -/
theorem refusal?_of_rendersIn {d : Sql.Dialect} (h : e.RendersIn d) :
    e.refusal? d = e.storedArrays.head?.map (d.refusal e) := by
  rw [refusal?, storedArrays]
  by_cases htable : e.table = true
  · rw [if_pos htable, if_pos htable, List.head?_filter, List.find?_eq_findSome?_guard,
      List.map_findSome?]
    refine findSome?_congr_of_mem fun column hmem ↦ ?_
    have hrenders : column.2.renderFailure? d = none :=
      Column.renderFailure?_eq_none_iff.mpr fun hd ↦ h hd htable column hmem
    cases harray : column.2.type.isArray <;>
      simp [Sql.Dialect.refusal?, Option.guard, harray, hrenders]
  · rw [if_neg htable, if_neg htable]
    rfl

/-- If no date fails, the failure of all tables is that of the first stored array column among them. -/
theorem findSome?_refusal?_of_rendersIn {d : Sql.Dialect} (h : ∀ e ∈ es, e.RendersIn d) :
    es.findSome? (·.refusal? d) =
      (allStoredArrays es).head?.map fun found ↦ d.refusal found.1 found.2 := by
  rw [allStoredArrays, List.head?_flatMap, List.map_findSome?]
  refine findSome?_congr_of_mem fun e he ↦ ?_
  rw [Function.comp_apply, refusal?_of_rendersIn (h e he), List.head?_map, Option.map_map]
  rfl

end Entity

namespace Sql

variable {d : Dialect} {subject : Subject} {type : ColumnType}

/-! ## Types -/

/-- Whether arrays are kept as JSON makes a difference to arrays only, and only where the dialect has none. -/
theorem renderType_congr {p : Profile} (h : p.nativeArrays = true ∨ type.isArray = false)
    (kept other : Bool) : renderType p kept subject type = renderType p other subject type := by
  cases h with
  | inl hnative =>
    induction type with
    | primitive q => rfl
    | arrayOf element ih => rw [renderType, renderType, if_pos hnative, if_pos hnative, ih]
  | inr harray =>
    cases type with
    | primitive q => rfl
    | arrayOf element => exact nomatch harray

theorem renderType_of_isArray (hdialect : d ≠ .postgres) (h : type.isArray = true) :
    renderType (.of d) false subject type = .error (subject.unsupported (.of d) type) := by
  cases type with
  | primitive q => exact nomatch h
  | arrayOf element =>
    cases d with
    | postgres => exact absurd rfl hdialect
    | _ => rfl

namespace Generator

variable {g : Generator} {e : Entity} {es : List Entity} {column : String × Column} {failure : Failure}

/-- The generator with arrays kept as JSON where its dialect has none, or not. -/
def keeping (g : Generator) (kept : Bool) : Generator :=
  { g with jsonArrayFallback := kept }

/-! ## The same statements -/

theorem columnDefinition_congr_kept
    (h : g.profile.nativeArrays = true ∨ column.2.type.isArray = false) (kept : Bool) (entity : String) :
    (g.keeping kept).columnDefinition entity column.1 column.2 =
      g.columnDefinition entity column.1 column.2 := by
  unfold columnDefinition keeping
  rw [renderType_congr h kept g.jsonArrayFallback]
  rfl

/-- An entity has the same statements whether arrays are kept as JSON or not if its dialect has arrays or its
table has none. -/
theorem statements_congr_kept (h : g.profile.nativeArrays = true ∨ e.storedArrays = []) (kept : Bool) :
    (g.keeping kept).statements e = g.statements e := by
  have htable : (g.keeping kept).tableStatement? e =
      g.tableStatement? e := by
    unfold tableStatement?
    by_cases hnone : (!e.table || e.storedColumns.isEmpty) = true
    · rw [if_pos hnone, if_pos hnone]
    · have hmapped : e.table = true := by
        have hboth : e.table = true ∧ e.storedColumns ≠ [] := by simpa using hnone
        exact hboth.1
      have hcolumns : (g.keeping kept).columnDefinitions e.name
          e.storedColumns = g.columnDefinitions e.name e.storedColumns := by
        apply mapM_congr_of_mem
        intro column hmem
        apply columnDefinition_congr_kept
        exact h.imp_right fun hnil ↦ Entity.storedArrays_eq_nil_iff.mp hnil hmapped column hmem
      rw [if_neg hnone, if_neg hnone, hcolumns]
      rfl
  unfold statements
  rw [htable]
  rfl

theorem renderAll_congr_kept
    (h : ∀ e ∈ es, g.profile.nativeArrays = true ∨ e.storedArrays = []) (kept : Bool) :
    (g.keeping kept).renderAll es = g.renderAll es := by
  have hall : es.mapM (g.keeping kept).statements =
      es.mapM g.statements :=
    mapM_congr_of_mem fun e he ↦ statements_congr_kept (h e he) kept
  unfold renderAll
  rw [hall]
  rfl

/-! ## The first failure -/

section Refused

variable (hprofile : g.profile = .of d) (hdialect : d ≠ .postgres) (hkept : g.jsonArrayFallback = false)

include hprofile hdialect hkept

/-- An array column has no definition, and any other column has the one that it always has. -/
theorem columnDefinition_refused {owner : String} {spec : ColumnSpecification}
    (hspec : spec.build owner column.1 = .ok column.2) :
    FailsWith (d.refusal? e column) (g.columnDefinition e.name column.1 column.2) := by
  unfold Dialect.refusal?
  cases harray : column.2.type.isArray with
  | true =>
    have hrefused : g.columnDefinition e.name column.1 column.2 = .error (d.refusal e column) := by
      unfold columnDefinition
      rw [hprofile, hkept, renderType_of_isArray hdialect harray]
      cases d <;> rfl
    intro failure
    rw [hrefused, if_pos rfl, Except.error.injEq, Option.some.injEq]
  | false =>
    rw [← columnDefinition_congr_kept (.inr harray) true]
    exact columnDefinition_failsWith (g := g.keeping true) hprofile rfl hspec e.name column.1

theorem statements_refused {v : Value} (hbuild : Entity.build v = .ok e) :
    FailsWith (e.refusal? d) (g.statements e) := by
  refine statements_failsWith_of fun column hmem ↦ ?_
  obtain ⟨owner, spec, hspec⟩ := Validation.exists_build_of_mem hbuild (List.mem_of_mem_filter hmem)
  exact columnDefinition_refused hprofile hdialect hkept hspec

theorem renderAll_refused (hbuilt : ∀ e ∈ es, ∃ v, Entity.build v = .ok e) :
    FailsWith (es.findSome? (·.refusal? d)) (g.renderAll es) := by
  have hstatements : FailsWith (es.findSome? (·.refusal? d)) (es.mapM g.statements) := by
    refine FailsWith.mapM fun e he ↦ ?_
    obtain ⟨v, hv⟩ := hbuilt e he
    exact statements_refused hprofile hdialect hkept hv
  exact hstatements.bind fun statements ↦ ⟨_, rfl⟩

end Refused

/-- Without arrays kept as JSON, the statements for built entities fail exactly if a dialect without arrays of
its own meets a stored column of a table that is an array or has a date for its default that fails, and then
as the first such column of the first such table does.  If no date fails, there is such a column exactly if
there is a stored array column of a table, and the failure is the error about the first one.  A dialect with
arrays gives the statements that it gives otherwise, and in every dialect so do tables without such columns. -/
theorem renderAll_refuses_arrays (hprofile : g.profile = .of d) (hkept : g.jsonArrayFallback = false)
    (hbuilt : ∀ e ∈ es, ∃ v, Entity.build v = .ok e) :
    (d ≠ .postgres →
      FailsWith (es.findSome? (·.refusal? d)) (g.renderAll es) ∧ ((∀ e ∈ es, e.RendersIn d) →
        ((∃ failure, g.renderAll es = .error failure) ↔
          ∃ e ∈ es, e.table = true ∧ ∃ column ∈ e.storedColumns, column.2.type.isArray = true) ∧
        ∀ failure, g.renderAll es = .error failure ↔
          ∃ e column, (Entity.allStoredArrays es).head? = some (e, column) ∧ failure =
            .entity (.unsupportedType column.1 column.2.type.describe (d.name ++ " DDL") (some e.name)))) ∧
    (d = .postgres ∨ Entity.allStoredArrays es = [] →
      (g.keeping true).renderAll es = g.renderAll es ∧
      ((∀ e ∈ es, e.RendersIn d) → ∃ statements, g.renderAll es = .ok statements)) ∧
    ∀ e, e.storedArrays = [] → (g.keeping true).statements e = g.statements e := by
  refine ⟨fun hdialect ↦ ?_, fun hplain ↦ ?_, fun e hnil ↦ statements_congr_kept (.inr hnil) true⟩
  · have hfails := renderAll_refused hprofile hdialect hkept hbuilt
    refine ⟨hfails, fun hrenders ↦ ?_⟩
    have herror (failure : Failure) : g.renderAll es = .error failure ↔
        ∃ e column, (Entity.allStoredArrays es).head? = some (e, column) ∧
          failure = d.refusal e column := by
      rw [hfails failure, Entity.findSome?_refusal?_of_rendersIn hrenders, Option.map_eq_some_iff,
        Prod.exists]
      exact exists₂_congr fun _ _ ↦ and_congr_right fun _ ↦ eq_comm
    refine ⟨?_, herror⟩
    rw [← Entity.allStoredArrays_ne_nil_iff, ← List.isSome_head?, Option.isSome_iff_exists, Prod.exists]
    constructor
    · rintro ⟨failure, hfailure⟩
      obtain ⟨e, column, hfirst, -⟩ := (herror failure).mp hfailure
      exact ⟨e, column, hfirst⟩
    · rintro ⟨e, column, hfirst⟩
      exact ⟨d.refusal e column, (herror _).mpr ⟨e, column, hfirst, rfl⟩⟩
  · have hsame : (g.keeping true).renderAll es = g.renderAll es := by
      apply renderAll_congr_kept
      intro e he
      refine hplain.imp (fun hdialect ↦ ?_) fun hnil ↦ Entity.allStoredArrays_eq_nil_iff.mp hnil e he
      rw [hprofile, hdialect]
      rfl
    refine ⟨hsame, fun hrenders ↦ ?_⟩
    rw [← hsame]
    exact exists_renderAll_of_rendersIn (g := g.keeping true) hprofile rfl hbuilt hrenders

/-! ### Tables with a nested array -/

/-- The description of an entity with a column of arrays of arrays, which is stored or not. -/
def arraysTable (name : String) (table stored : Bool) : Value :=
  .ofFields [("name", .text name), ("table", .bool table), ("columns", .ofFields
    [("id", .ofFields [("type", .text "string")]),
      ("tags", .ofFields [("type", .ofFields [("arrayOf", .ofFields [("arrayOf", .text "string")])]),
        ("stored", .bool stored)])])]

/-- The entity that `arraysTable` describes. -/
def arraysEntity (name : String) (table stored : Bool) : Entity :=
  Specification.freeze
    { name, table, columns := [("id", { type := .text "string" }),
        ("tags", { type := .ofFields [("arrayOf", .ofFields [("arrayOf", .text "string")])], stored })] }
    [("id", { type := .primitive .string }),
      ("tags", { type := .arrayOf (.arrayOf (.primitive .string)), stored })]

/-- Arrays of an entity without a table and arrays that are not stored do no harm. -/
theorem renderAll_refuses_arrays_user :
    let es := [arraysEntity "Draft" false true, arraysEntity "Post" true false,
      arraysEntity "User" true true]
    let g : Generator := {
      profile := .of .sqlite, naming := .entity, schemaName := none, ifNotExists := true
      jsonArrayFallback := false, includeComments := false, indent := "  " }
    (∀ e ∈ es, ∃ v, Entity.build v = .ok e) ∧ (∀ e ∈ es, e.RendersIn .sqlite) ∧
      g.renderAll es = .error (.entity
        (.unsupportedType "tags" "arrayOf(arrayOf(string))" "sqlite DDL" (some "User"))) ∧
      ∃ statements, g.renderAll (es.take 2) = .ok statements ∧
        (g.keeping true).renderAll (es.take 2) = .ok statements := by
  intro es g
  have hbuilt : ∀ e ∈ es, ∃ v, Entity.build v = .ok e :=
    List.forall_mem_cons.mpr ⟨⟨arraysTable "Draft" false true, rfl⟩, List.forall_mem_cons.mpr
      ⟨⟨arraysTable "Post" true false, rfl⟩, List.forall_mem_singleton.mpr
        ⟨arraysTable "User" true true, rfl⟩⟩⟩
  have hrenders : ∀ e ∈ es, e.RendersIn .sqlite := fun _ _ hmysql ↦ nomatch hmysql
  have hbuiltTwo (e : Entity) (he : e ∈ es.take 2) : ∃ v, Entity.build v = .ok e :=
    hbuilt e (List.mem_of_mem_take he)
  have hrendersTwo (e : Entity) (he : e ∈ es.take 2) : e.RendersIn .sqlite :=
    hrenders e (List.mem_of_mem_take he)
  obtain ⟨hfails, -, -⟩ := renderAll_refuses_arrays (g := g) (d := .sqlite) rfl rfl hbuilt
  obtain ⟨-, hplain, -⟩ := renderAll_refuses_arrays (g := g) (d := .sqlite) rfl rfl hbuiltTwo
  obtain ⟨hsame, hsucceeds⟩ := hplain (.inr rfl)
  obtain ⟨statements, hstatements⟩ := hsucceeds hrendersTwo
  exact ⟨hbuilt, hrenders, (((hfails nofun).2 hrenders).2 _).mpr ⟨_, _, rfl, rfl⟩, statements,
    hstatements, hsame.trans hstatements⟩

open Validation in
/-- A date that is not read, in the table before the one with an array, decides the failure.  It is within the
years of the calendar in universal time. -/
theorem renderAll_refuses_arrays_seconds :
    let text := halfMinute.isoText
    let dated := tableEntity .date (.moment halfMinute) (.text text)
    let es := [dated, arraysEntity "User" true true]
    let g : Generator := {
      profile := .of .mysql, naming := .entity, schemaName := none, ifNotExists := true
      jsonArrayFallback := false, includeComments := false, indent := "  " }
    (∀ e ∈ es, ∃ v, Entity.build v = .ok e) ∧ ¬halfMinute.LeavesCalendar ∧
      (Entity.allStoredArrays es).head?.map (fun found ↦ found.1.name) = some "User" ∧
      g.renderAll es = .error (.instant (.form text)) := by
  intro text dated es g
  have hdated : Entity.build (tableColumn .date (.moment halfMinute)) = .ok dated :=
    build_tableColumn rfl (by simp) rfl
  have hbuilt : ∀ e ∈ es, ∃ v, Entity.build v = .ok e :=
    List.forall_mem_cons.mpr ⟨⟨_, hdated⟩, List.forall_mem_singleton.mpr
      ⟨arraysTable "User" true true, rfl⟩⟩
  have hdate : dateFailure? text = some (.instant (.form text)) := by
    rw [dateFailure?, Instant.read_isoText_of_seconds (t := halfMinute) rfl]
  have hfirst : dated.refusal? .mysql = some (.instant (.form text)) :=
    (renderFailure?_tableEntity _ _).trans hdate
  refine ⟨hbuilt, ?_, rfl, ?_⟩
  · rintro ⟨o, -, ⟨⟨hyear, -⟩, -⟩ | ⟨⟨hyear, -⟩, -⟩⟩ <;> exact absurd hyear (by decide)
  · refine (renderAll_refused (d := .mysql) rfl (by decide) rfl hbuilt _).mpr ?_
    rw [List.findSome?_cons, hfirst]

end Generator

end Sql

end EntityCompiler
