import EntityCompiler.Journal.Generation
import EntityCompiler.Proofs.Sql.Render

/-!
# Artifacts of accepted entities

Which artifacts an accepted entity has.  The schemas can always be made, whatever has been recorded
before.  There is a DDL text unless a date among the defaults is not read or leaves the calendar, and a
component unless a column shown in it has too many levels.
-/

namespace EntityCompiler

/-- Whether the type, the default and the example of a column have no more levels than a property may
have in a component. -/
def Column.FitsComponent (c : Column) : Prop :=
  c.type.depth + 2 ≤ depthLimit ∧
    ∀ value, c.default = some value ∨ c.sample = some value → value.depth + 2 ≤ depthLimit

/-- Whether all columns of an entity that are shown fit into a component. -/
def Entity.FitsComponent (e : Entity) : Prop :=
  ∀ column ∈ e.publicColumns, column.2.FitsComponent

namespace Api

theorem propertyFits_iff {c : Column} : propertyFits c = true ↔ c.FitsComponent := by
  unfold propertyFits Column.FitsComponent
  simp only [Bool.and_eq_true, decide_eq_true_eq, Option.all_eq_true, and_assoc, or_imp,
    forall_and]

theorem fits_iff {e : Entity} : fits e = true ↔ e.FitsComponent := by
  simp only [fits, List.all_eq_true, propertyFits_iff]
  rfl

theorem checkedModel_succeedsIff (e : Entity) :
    SucceedsIff e.FitsComponent .tooDeep (checkedModel e) := by
  rw [← fits_iff, checkedModel]
  by_cases hfits : fits e = true
  · rw [if_pos hfits]
    exact .of_ok hfits rfl
  · rw [if_neg hfits]
    exact ⟨fun h ↦ absurd h hfits, fun _ ↦ rfl⟩

theorem component_succeedsIff (e : Entity) :
    SucceedsIff e.FitsComponent .tooDeep (component e) :=
  (checkedModel_succeedsIff e).map Model.dump

end Api

namespace Recorded

variable {α β : Type}

/-- The outcome of a run that starts with a given journal. -/
def result (run : Recorded α) (j : Journal) : Except Failure α :=
  (run.run.run j).1

/-- A step that leaves no record does not change what the next one starts with. -/
theorem result_ofResult_bind (x : Except Failure α) (f : α → Recorded β) (j : Journal) :
    result (ofResult x >>= f) j = x >>= fun a ↦ result (f a) j := by
  cases x <;> rfl

theorem result_within (change : Journal.Change) (body : Recorded α) (j : Journal) :
    result (within change body) j = result body (j.enter change) :=
  rfl

variable {d : Sql.Dialect} {g : Sql.Generator} {v : Value} {e : Entity}

theorem render_failsWith (hprofile : g.profile = .of d) (hfallback : g.jsonArrayFallback = true)
    (h : Entity.build v = .ok e) (j : Journal) :
    FailsWith (e.renderFailure? d) (result (render g e) j) := by
  have htext := Sql.Generator.render_failsWith hprofile hfallback h
  have hstatements := Sql.Generator.statements_failsWith hprofile hfallback h
  rw [render, result_within, result_ofResult_bind]
  cases hfailure : e.renderFailure? d with
  | none =>
    obtain ⟨text, htext⟩ := htext.success hfailure
    obtain ⟨statements, hstatements⟩ := hstatements.success hfailure
    rw [htext, hstatements]
    exact .of_ok rfl rfl
  | some failure =>
    rw [(htext failure).mpr hfailure]
    intro other
    change Except.error failure = .error other ↔ some failure = some other
    simp

theorem component_succeedsIff (e : Entity) (j : Journal) :
    SucceedsIff e.FitsComponent (.entity .tooDeep) (result (component e) j) :=
  (Api.component_succeedsIff e).mapError Failure.entity

end Recorded

open Recorded in
/-- For settings that are known and that keep arrays as JSON where a dialect has none, every accepted
entity has its schemas, a DDL text unless the dialect cannot read one of its dates or moves it out of the
calendar, and a component unless one of its columns has too many levels for that. -/
theorem Entity.artifacts_of_build {v : Value} {e : Entity} (h : build v = .ok e)
    {settings : Sql.Settings} {dialect : Option Value} {d : Sql.Dialect} {naming : Sql.TableNaming}
    (hdialect : Sql.Dialect.resolve (dialect.getD settings.dialect) = .ok d)
    (hnaming : Sql.TableNaming.resolve settings.tableNaming = .ok naming)
    (hfallback : settings.jsonArrayFallback = true) (schema : Option String) (j : Journal) :
    (∃ g, Sql.Generator.resolve settings dialect schema = .ok g ∧
      FailsWith (e.renderFailure? d) (result (render g e) j)) ∧
      (e.renderFailure? d = none ↔ e.RendersIn d) ∧
      SucceedsIff e.FitsComponent (.entity .tooDeep) (result (component e) j) ∧
      result (fullSchema e) j = .ok (.full e) ∧ result (shownSchema e) j = .ok (.shown e) ∧
      result (inputSchemas e) j = .ok (.create e, .update e) := by
  obtain ⟨g, hg, hprofile, hkept⟩ := Sql.Generator.exists_resolve hdialect hnaming schema
  exact ⟨⟨g, hg, render_failsWith hprofile (hkept.trans hfallback) h j⟩,
    renderFailure?_eq_none_iff, component_succeedsIff e j, rfl, rfl, rfl⟩

open Recorded in
theorem Entity.artifacts_of_build_newYear :
    let v := Sql.tableColumn .date (.moment Validation.newYear)
    let e := Sql.tableEntity .date (.moment Validation.newYear) (.text Validation.newYear.isoText)
    let settings : Sql.Settings := {}
    build v = .ok e ∧ Sql.Dialect.resolve (.text "mysql") = .ok .mysql ∧
      Sql.TableNaming.resolve settings.tableNaming = .ok .entity ∧
      settings.jsonArrayFallback = true ∧
      ∃ g text schema, Sql.Generator.resolve settings (some (.text "mysql")) none = .ok g ∧
        result (render g e) {} = .ok text ∧ result (component e) {} = .ok schema := by
  intro v e settings
  have hbuild : build v = .ok e := Sql.build_tableColumn rfl (by simp) rfl
  have hdialect : Sql.Dialect.resolve ((some (.text "mysql") : Option Value).getD
      settings.dialect) = .ok .mysql := by rfl
  have hnaming : Sql.TableNaming.resolve settings.tableNaming = .ok .entity := by rfl
  obtain ⟨⟨g, hg, htext⟩, hrendersIff, hcomponent, -⟩ :=
    artifacts_of_build hbuild hdialect hnaming rfl none {}
  have hrenders : e.RendersIn .mysql := by
    intro _ _ column hmem value hdefault
    obtain rfl := List.mem_singleton.mp hmem
    obtain rfl := Option.some.inj hdefault
    refine (Literal.staysInCalendar_text_iff (Instant.read_isoText (t := Validation.newYear) rfl)).mpr ?_
    rintro ⟨o, ho, -⟩
    exact nomatch ho
  have hfits : e.FitsComponent := by
    intro column hmem
    obtain rfl := List.mem_singleton.mp hmem
    refine ⟨by decide, fun value hvalue ↦ ?_⟩
    obtain rfl := Option.some.inj (hvalue.resolve_right nofun)
    exact (by decide : 1 + 2 ≤ depthLimit)
  obtain ⟨text, htext⟩ := htext.success (hrendersIff.mpr hrenders)
  obtain ⟨schema, hschema⟩ := hcomponent.success hfits
  exact ⟨hbuild, hdialect, hnaming, rfl, g, text, schema, hg, htext, hschema⟩

theorem Date.january_mem : 1 ≤ 1 ∧ 1 ≤ 12 := by
  decide

/-- The first moment of the calendar on a clock that is an hour ahead of universal time. -/
def Moment.early : Moment :=
  ⟨⟨1, 1, 1, by decide, Date.january_mem, by decide⟩, Clock.midnight, some ⟨3600000000, by decide⟩⟩

open Recorded in
/-- An entity with a date that its dialect does not write is accepted and has no DDL text. -/
theorem Entity.render_of_dateFailure? {t : Moment} {failure : Failure}
    (h : Sql.dateFailure? t.isoText = some failure) :
    ∃ e g, build (Sql.tableColumn .date (.moment t)) = .ok e ∧
      Sql.Generator.resolve {} (some (.text "mysql")) none = .ok g ∧
      result (render g e) {} = .error failure := by
  have hread : Literal.readScalar .date (.moment t) = .ok (.text t.isoText) := rfl
  have hbuild := Sql.build_tableColumn hread (by simp) rfl
  have hdialect : Sql.Dialect.resolve (.text "mysql") = .ok .mysql := rfl
  obtain ⟨g, hg, hprofile, hkept⟩ := Sql.Generator.exists_resolve_named hdialect
  exact ⟨_, g, hbuild, hg, (render_failsWith hprofile hkept hbuild {} failure).mpr
    ((Sql.renderFailure?_tableEntity _ _).trans h)⟩

/-- There is no component where the default of a public column has too many levels. -/
theorem Entity.not_fitsComponent_of_nested {e : Entity} {column : String × Column} {depth : Nat}
    (hmem : column ∈ e.publicColumns)
    (hdefault : column.2.default = some (Validation.nestedJson depth))
    (hdeep : depthLimit < depth + 3) : ¬e.FitsComponent := by
  intro hfits
  have hlevels := (hfits column hmem).2 _ (.inl hdefault)
  rw [Validation.depth_nestedJson] at hlevels
  omega

open Recorded in
/-- Accepted entities without a DDL text in one of the dialects, and one without a component. -/
theorem Entity.artifacts_of_build_early :
    (∃ e g, build (Sql.tableColumn .date (.moment Moment.early)) = .ok e ∧
      Sql.Generator.resolve {} (some (.text "mysql")) none = .ok g ∧
      result (render g e) {} = .error .dateOutOfRange) ∧
    (∃ e g, build (Sql.tableColumn .date (.moment Validation.halfMinute)) = .ok e ∧
      Sql.Generator.resolve {} (some (.text "mysql")) none = .ok g ∧
      result (render g e) {} = .error (.instant (.form Validation.halfMinute.isoText))) ∧
    ∃ e, build (Sql.tableColumn .json (Validation.nested 253)) = .ok e ∧
      result (component e) {} = .error (.entity .tooDeep) := by
  refine ⟨render_of_dateFailure? ?_, render_of_dateFailure? ?_, ?_⟩
  · have hleaves : Moment.early.toUtc? = none :=
      Moment.toUtc?_eq_none_iff.mpr ⟨_, rfl, .inl ⟨⟨rfl, rfl, rfl⟩, by decide⟩⟩
    rw [Sql.dateFailure?, Instant.read_isoText (t := Moment.early) rfl]
    simp [hleaves]
  · rw [Sql.dateFailure?, Instant.read_isoText_of_seconds (t := Validation.halfMinute) rfl]
  · exact ⟨_, Sql.build_tableColumn_nested 253, (component_succeedsIff _ {}).failure
      (not_fitsComponent_of_nested List.mem_cons_self rfl (by decide))⟩

end EntityCompiler
