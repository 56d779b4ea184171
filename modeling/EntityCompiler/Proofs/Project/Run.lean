import EntityCompiler.Proofs.Api.Document
import EntityCompiler.Proofs.Sql.Stored
import EntityCompiler.Proofs.Store.Transparency

/-!
# Runs of projects

A run has three phases: the settings are resolved, all sources are defined, and the artifacts of the
active entities are generated.  A failure in one phase comes before all failures in later ones, and
within a phase the first failure in order decides.  Without a failure the artifacts are those that
each active entity has on its own.
-/

namespace EntityCompiler

variable {settings : Sql.Settings} {dialect : Option Value} {options : Api.DocumentOptions}
  {workers : Option Int} {g : Sql.Generator} {store : Store} {source : Source}
  {sources : List Source} {e : Entity} {es : List Entity} {a : Artifacts} {p : Project}

/-! ## Sources -/

/-- Whether a source has no definition, and why. -/
inductive Source.Refused : Source → EntityError → Prop
  | description {v : Value} {error : EntityError} :
      Entity.build v = .error error → Refused (.description v) error

/-- Whether an entity is what a source stands for.  A store may give back an entity that was built
before, with the fingerprint of the one that is described. -/
inductive Source.Defines : Source → Entity → Prop
  | definition (e : Entity) : Defines (.definition e) e
  | description {v : Value} {described e : Entity} :
      Entity.build v = .ok described → e.fingerprint = described.fingerprint →
      Defines (.description v) e

namespace Source

theorem define_eq_error_iff {error : EntityError} :
    (source.define store).1 = .error error ↔ source.Refused error := by
  cases source with
  | definition e => exact ⟨nofun, nofun⟩
  | description v =>
    have hbuild : ((description v).define store).1 = .error error ↔
        Entity.build v = .error error := by
      cases h : Entity.build v <;> simp [define, Store.build, Store.serve, h, Except.map]
    rw [hbuild]
    constructor
    · exact .description
    · rintro ⟨hrefused⟩
      exact hrefused

theorem defines_of_define (h : (source.define store).1 = .ok e) : source.Defines e := by
  cases source with
  | definition other =>
    obtain rfl := Except.ok.inj h
    exact .definition other
  | description v =>
    cases hbuild : Entity.build v with
    | error error => simp [define, Store.build, Store.serve, hbuild, Except.map] at h
    | ok described =>
      have hentity : (store.add described).1.entity = e := by
        simpa [define, Store.build, Store.serve, hbuild, Except.map] using h
      refine .description hbuild ?_
      rw [← hentity, store.fingerprint_add]

theorem defineAll_cons (store : Store) (source : Source) (sources : List Source) :
    (defineAll store (source :: sources)).1 = (source.define store).1 >>= fun e ↦
      (defineAll (source.define store).2 sources).1 >>= fun es ↦ .ok (e :: es) := by
  rw [defineAll]
  generalize source.define store = defined
  obtain ⟨_ | e, after⟩ := defined
  · rfl
  · cases h : defineAll after sources with
    | mk result last => cases result <;> simp [h, bind, Except.bind]

theorem reports_defineAll (store : Store) (sources : List Source) :
    Reports Refused sources (defineAll store sources).1 := by
  induction sources generalizing store with
  | nil => exact .of_ok rfl
  | cons source sources ih =>
    have hsource : Reports Refused [source] (source.define store).1 :=
      .of_check fun _ ↦ define_eq_error_iff
    rw [defineAll_cons]
    exact hsource.bind fun _ _ ↦ (ih _).followed fun _ ↦ ⟨_, rfl⟩

theorem defines_of_defineAll (h : (defineAll store sources).1 = .ok es) :
    List.Forall₂ Defines sources es := by
  induction sources generalizing store es with
  | nil =>
    obtain rfl := Except.ok.inj h
    exact .nil
  | cons source sources ih =>
    rw [defineAll_cons, bind_eq_ok_iff] at h
    obtain ⟨e, he, hrest⟩ := h
    obtain ⟨rest, hall, hes⟩ := bind_eq_ok_iff.mp hrest
    obtain rfl := Except.ok.inj hes
    exact .cons (defines_of_define he) (ih hall)

end Source

/-! ## Entities -/

/-- Whether an entity has no artifacts, and why.  A DDL text that cannot be made counts before a
component that cannot. -/
inductive Entity.Fails (g : Sql.Generator) (e : Entity) : Failure → Prop
  | ddl {failure : Failure} : e.table = true → g.render e = .error failure → Fails g e failure
  | component : (e.table = true → ∃ text, g.render e = .ok text) → ¬e.FitsComponent →
      Fails g e (.entity .tooDeep)

namespace Artifacts

theorem ddlOf_eq_error_iff {failure : Failure} :
    ddlOf g e = .error failure ↔ e.table = true ∧ g.render e = .error failure := by
  unfold ddlOf
  cases e.table with
  | false => simp
  | true => simp [map_eq_error_iff]

theorem exists_ddlOf_iff :
    (∃ ddl, ddlOf g e = .ok ddl) ↔ (e.table = true → ∃ text, g.render e = .ok text) := by
  unfold ddlOf
  cases e.table with
  | false => simp
  | true => simp [map_eq_ok_iff]

theorem ofEntity_eq_error_iff {failure : Failure} :
    ofEntity g e = .error failure ↔ e.Fails g failure := by
  have hcomponent := (Api.component_succeedsIff e).mapError Failure.entity
  unfold ofEntity
  simp only [bind_eq_error_iff, hcomponent.eq_error_iff, ddlOf_eq_error_iff, pure, Except.pure,
    reduceCtorEq, and_false, exists_false, or_false, exists_and_right, exists_ddlOf_iff]
  constructor
  · rintro (⟨htable, hddl⟩ | ⟨hddl, hdeep, rfl⟩)
    · exact .ddl htable hddl
    · exact .component hddl hdeep
  · rintro (⟨htable, hddl⟩ | ⟨hddl, hdeep⟩)
    · exact .inl ⟨htable, hddl⟩
    · exact .inr ⟨hddl, hdeep, rfl⟩

theorem ofEntity_eq_ok_iff : ofEntity g e = .ok a ↔
    ∃ ddl component, ddlOf g e = .ok ddl ∧ Api.component e = .ok component ∧
      { entity := e, ddl, full := .full e, shown := .shown e, create := .create e,
        update := .update e, component } = a := by
  unfold ofEntity
  simp only [bind_eq_ok_iff, mapError_eq_ok_iff, pure, Except.pure, Except.ok.injEq]
  simp only [exists_and_left]

section OfEntity

variable (h : ofEntity g e = .ok a)
include h

theorem entity_of_ofEntity : a.entity = e := by
  obtain ⟨ddl, component, -, -, rfl⟩ := ofEntity_eq_ok_iff.mp h
  rfl

theorem component_of_ofEntity : Api.component e = .ok a.component := by
  obtain ⟨ddl, component, -, hcomponent, rfl⟩ := ofEntity_eq_ok_iff.mp h
  exact hcomponent

theorem ddlOf_of_ofEntity : ddlOf g e = .ok a.ddl := by
  obtain ⟨ddl, component, hddl, -, rfl⟩ := ofEntity_eq_ok_iff.mp h
  exact hddl

theorem ddl_of_ofEntity : (e.table = false ∧ a.ddl = none) ∨
    ∃ text, e.table = true ∧ g.render e = .ok text ∧ a.ddl = some text := by
  have hddl := ddlOf_of_ofEntity h
  unfold ddlOf at hddl
  cases htable : e.table with
  | false =>
    rw [htable] at hddl
    exact .inl ⟨rfl, (Except.ok.inj hddl).symm⟩
  | true =>
    rw [htable, if_pos rfl] at hddl
    obtain ⟨text, htext, hsome⟩ := map_eq_ok_iff.mp hddl
    exact .inr ⟨text, rfl, htext, hsome.symm⟩

end OfEntity

/-- The DDL texts of several entities are those of the ones with a table, in order. -/
theorem forall₂_ddl {artifacts : List Artifacts}
    (h : List.Forall₂ (fun e a ↦ ofEntity g e = .ok a) es artifacts) :
    List.Forall₂ (fun e text ↦ g.render e = .ok text) (es.filter (·.table))
      (artifacts.filterMap (·.ddl)) := by
  induction h with
  | nil => exact .nil
  | cons hfirst _ ih =>
    rw [List.filter_cons, List.filterMap_cons]
    rcases ddl_of_ofEntity hfirst with ⟨htable, hddl⟩ | ⟨text, htable, htext, hddl⟩
    · rw [htable, hddl]
      exact ih
    · rw [htable, hddl]
      exact .cons htext ih

end Artifacts

/-! ## Settings -/

theorem Sql.Profile.dialect_of (d : Sql.Dialect) : (Sql.Profile.of d).dialect = d := by
  cases d <;> rfl

namespace Sql.Generator

theorem resolve_eq_error_iff {schema : Option String} {failure : Failure} :
    resolve settings dialect schema = .error failure ↔
      (∃ error, Dialect.resolve (dialect.getD settings.dialect) = .error error ∧
        failure = .entity error) ∨
      (∃ d, Dialect.resolve (dialect.getD settings.dialect) = .ok d) ∧
        TableNaming.resolve settings.tableNaming = .error failure := by
  unfold resolve
  simp only [bind_eq_error_iff, mapError_eq_error_iff, mapError_eq_ok_iff, pure, Except.pure,
    reduceCtorEq, and_false, exists_false, or_false, exists_and_right]

theorem dialect_of_resolve {schema : Option String} (h : resolve settings dialect schema = .ok g) :
    Dialect.resolve (dialect.getD settings.dialect) = .ok g.profile.dialect := by
  obtain ⟨d, hdialect, hrest⟩ := bind_eq_ok_iff.mp h
  obtain ⟨naming, -, hg⟩ := bind_eq_ok_iff.mp hrest
  obtain rfl := Except.ok.inj hg
  rw [mapError_eq_ok_iff.mp hdialect, Profile.dialect_of]

end Sql.Generator

/-! ## Projects -/

theorem buildArtifacts_definition (hg : Sql.Generator.resolve settings dialect none = .ok g)
    (store : Store) (e : Entity) :
    buildArtifacts settings dialect store (.definition e) = Artifacts.ofEntity g e := by
  rw [buildArtifacts, hg]
  rfl

theorem toDdl_eq_render (hg : Sql.Generator.resolve settings dialect none = .ok g) (e : Entity) :
    Sql.toDdl settings dialect e = g.render e := by
  rw [Sql.toDdl, hg]
  rfl

namespace Project

/-- What a project has of given definitions. -/
structure Covers (settings : Sql.Settings) (dialect : Option Value) (options : Api.DocumentOptions)
    (es : List Entity) (p : Project) : Prop where
  resolved : Sql.Dialect.resolve (dialect.getD settings.dialect) = .ok p.dialect
  /-- The entities are the active ones, in order. -/
  active : p.entities.map (·.entity) = es.filter (·.metadata.active)
  /-- Every entity has the artifacts that it has on its own. -/
  alone : ∀ a ∈ p.entities, ∀ store,
    buildArtifacts settings dialect store (.definition a.entity) = .ok a
  skipped : p.skipped = (es.filter fun e ↦ !e.metadata.active).map (·.name)
  ddl : ∀ a ∈ p.entities, a.ddl = none ↔ a.entity.table = false
  script : ∃ texts, List.Forall₂ (fun e text ↦ Sql.toDdl settings dialect e = .ok text)
    ((es.filter (·.metadata.active)).filter (·.table)) texts ∧ p.script = "\n\n".intercalate texts
  document : Api.projectDocument (es.filter (·.metadata.active)) options = .ok p.document

/-- A pool with workers never lacks one. -/
theorem pool_of_workers (hworkers : ∀ n, workers = some n → 0 < n) (es : List Entity) :
    (!(active es).isEmpty && workers.any (· ≤ 0)) = false := by
  cases workers with
  | none => simp
  | some n => simp [hworkers n rfl]

theorem ofEntities_eq (hpool : (!(active es).isEmpty && workers.any (· ≤ 0)) = false)
    (g : Sql.Generator) (options : Api.DocumentOptions) :
    ofEntities g options workers es =
      (active es).mapM (Artifacts.ofEntity g) >>= fun entities ↦
        (Api.projectDocument (active es) options).mapError Failure.entity >>= fun document ↦
          .ok ⟨g.profile.dialect, entities, skippedNames es, document⟩ := by
  unfold ofEntities
  rw [hpool]
  rfl

theorem pool_of_ofEntities (h : ofEntities g options workers es = .ok p) :
    (!(active es).isEmpty && workers.any (· ≤ 0)) = false := by
  apply Bool.eq_false_iff.mpr
  intro hpool
  unfold ofEntities at h
  rw [hpool] at h
  cases h

/-- A failure is that of the first active entity that fails. -/
theorem reports_ofEntities (hworkers : ∀ n, workers = some n → 0 < n) (g : Sql.Generator)
    (options : Api.DocumentOptions) (es : List Entity) :
    Reports (Entity.Fails g) (active es) (ofEntities g options workers es) := by
  have hentities : Reports (Entity.Fails g) (active es)
      ((active es).mapM (Artifacts.ofEntity g)) :=
    .mapM (fun _ _ ↦ Artifacts.ofEntity_eq_error_iff) _
  rw [ofEntities_eq (pool_of_workers hworkers es)]
  refine hentities.followed_of_ok fun entities hok ↦ ?_
  -- A document needs no components but those of the active entities, which exist by now.
  have hcomponents (e : Entity) (hmem : e ∈ active es) :
      ∃ component, Api.component e = .ok component := by
    obtain ⟨a, -, ha⟩ := exists_of_forall₂_of_mem (mapM_eq_ok_iff.mp hok).flip hmem
    exact ⟨a.component, Artifacts.component_of_ofEntity ha⟩
  obtain ⟨document, hdocument⟩ := Api.exists_projectDocument hcomponents options
  rw [hdocument]
  exact ⟨_, rfl⟩

section Generated

variable (hg : Sql.Generator.resolve settings dialect none = .ok g)
include hg

theorem forall₂_ofEntity (h : p.Covers settings dialect options es) :
    List.Forall₂ (fun e a ↦ Artifacts.ofEntity g e = .ok a) (active es) p.entities := by
  rw [active, ← h.active, List.forall₂_map_left_iff]
  refine List.forall₂_same.mpr fun a hmem ↦ ?_
  rw [← buildArtifacts_definition hg (.ofCapacity 0)]
  exact h.alone a hmem (.ofCapacity 0)

theorem covers_of_forall₂
    (h : List.Forall₂ (fun e a ↦ Artifacts.ofEntity g e = .ok a) (active es) p.entities)
    (hdialect : p.dialect = g.profile.dialect) (hskipped : p.skipped = skippedNames es)
    (hdocument : Api.projectDocument (active es) options = .ok p.document) :
    p.Covers settings dialect options es where
  resolved := hdialect ▸ Sql.Generator.dialect_of_resolve hg
  active := by
    rw [← List.map_id (es.filter (·.metadata.active))]
    exact (map_eq_of_forall₂ (h.imp fun e a ha ↦ (Artifacts.entity_of_ofEntity ha).symm)).symm
  alone a hmem store := by
    obtain ⟨e, -, ha⟩ := exists_of_forall₂_of_mem h hmem
    rw [buildArtifacts_definition hg, Artifacts.entity_of_ofEntity ha]
    exact ha
  skipped := hskipped
  ddl a hmem := by
    obtain ⟨e, -, ha⟩ := exists_of_forall₂_of_mem h hmem
    rw [Artifacts.entity_of_ofEntity ha]
    rcases Artifacts.ddl_of_ofEntity ha with ⟨htable, hddl⟩ | ⟨text, htable, -, hddl⟩
    · simp [htable, hddl]
    · simp [htable, hddl]
  script := by
    refine ⟨p.entities.filterMap (·.ddl), ?_, rfl⟩
    simp only [toDdl_eq_render hg]
    exact Artifacts.forall₂_ddl h
  document := hdocument

theorem covers_of_ofEntities (h : ofEntities g options workers es = .ok p) :
    p.Covers settings dialect options es := by
  rw [ofEntities_eq (pool_of_ofEntities h)] at h
  obtain ⟨entities, hentities, hrest⟩ := bind_eq_ok_iff.mp h
  obtain ⟨document, hdocument, hp⟩ := bind_eq_ok_iff.mp hrest
  obtain rfl := Except.ok.inj hp
  exact covers_of_forall₂ hg (mapM_eq_ok_iff.mp hentities) rfl rfl (mapError_eq_ok_iff.mp hdocument)

theorem ofEntities_of_covers (hworkers : ∀ n, workers = some n → 0 < n)
    (h : p.Covers settings dialect options es) : ofEntities g options workers es = .ok p := by
  have hentities := mapM_eq_ok_iff.mpr (forall₂_ofEntity hg h)
  have hdialect := Except.ok.inj ((Sql.Generator.dialect_of_resolve hg).symm.trans h.resolved)
  have hdocument : Api.projectDocument (active es) options = .ok p.document := h.document
  rw [ofEntities_eq (pool_of_workers hworkers es), hentities, hdocument, hdialect, skippedNames,
    ← h.skipped]
  rfl

end Generated

/-- A run with a result covers the definitions of its sources. -/
theorem covers_of_build (h : build settings dialect options workers store sources = .ok p) :
    ∃ es, (Source.defineAll store sources).1 = .ok es ∧ p.Covers settings dialect options es := by
  obtain ⟨g, hg, hrest⟩ := bind_eq_ok_iff.mp h
  obtain ⟨es, hes, hp⟩ := bind_eq_ok_iff.mp hrest
  exact ⟨es, mapError_eq_ok_iff.mp hes, covers_of_ofEntities hg hp⟩

/-- How a run ends.  The settings come before the sources, and these before the generation; in each
phase the first failure counts. -/
inductive Ends (settings : Sql.Settings) (dialect : Option Value) (options : Api.DocumentOptions)
    (store : Store) (sources : List Source) : Except Failure Project → Prop
  | dialect {error : EntityError} :
      Sql.Dialect.resolve (dialect.getD settings.dialect) = .error error →
      Ends settings dialect options store sources (.error (.entity error))
  | naming {d : Sql.Dialect} {failure : Failure} :
      Sql.Dialect.resolve (dialect.getD settings.dialect) = .ok d →
      Sql.TableNaming.resolve settings.tableNaming = .error failure →
      Ends settings dialect options store sources (.error failure)
  | source {g : Sql.Generator} {error : EntityError} :
      Sql.Generator.resolve settings dialect none = .ok g →
      FirstError Source.Refused sources error →
      Ends settings dialect options store sources (.error (.entity error))
  | entity {g : Sql.Generator} {es : List Entity} {failure : Failure} :
      Sql.Generator.resolve settings dialect none = .ok g →
      (Source.defineAll store sources).1 = .ok es →
      FirstError (Entity.Fails g) (es.filter (·.metadata.active)) failure →
      Ends settings dialect options store sources (.error failure)
  | done {g : Sql.Generator} {es : List Entity} {p : Project} :
      Sql.Generator.resolve settings dialect none = .ok g →
      (Source.defineAll store sources).1 = .ok es →
      (∀ e ∈ es.filter (·.metadata.active), ∀ failure, ¬e.Fails g failure) →
      p.Covers settings dialect options es →
      Ends settings dialect options store sources (.ok p)

section Ends

variable (hworkers : ∀ n, workers = some n → 0 < n)
include hworkers

theorem build_of_ends {outcome : Except Failure Project}
    (h : Ends settings dialect options store sources outcome) :
    build settings dialect options workers store sources = outcome := by
  unfold build
  cases h with
  | dialect hdialect =>
    rw [Sql.Generator.resolve_eq_error_iff.mpr (.inl ⟨_, hdialect, rfl⟩), error_bind]
  | naming hdialect hnaming =>
    rw [Sql.Generator.resolve_eq_error_iff.mpr (.inr ⟨⟨_, hdialect⟩, hnaming⟩), error_bind]
  | source hg hrefused =>
    rw [hg, (Source.reports_defineAll store sources _).mpr hrefused]
    rfl
  | entity hg hes hfails =>
    rw [hg, hes]
    exact (reports_ofEntities hworkers _ options _ _).mpr hfails
  | done hg hes _ hcovers =>
    rw [hg, hes]
    exact ofEntities_of_covers hg hworkers hcovers

theorem ends_build :
    Ends settings dialect options store sources
      (build settings dialect options workers store sources) := by
  unfold build
  cases hg : Sql.Generator.resolve settings dialect none with
  | error failure =>
    rw [error_bind]
    rcases Sql.Generator.resolve_eq_error_iff.mp hg with
      ⟨error, hdialect, rfl⟩ | ⟨⟨d, hdialect⟩, hnaming⟩
    · exact .dialect hdialect
    · exact .naming hdialect hnaming
  | ok g =>
    cases hes : (Source.defineAll store sources).1 with
    | error error => exact .source hg ((Source.reports_defineAll store sources error).mp hes)
    | ok es =>
      have hreports := reports_ofEntities hworkers g options es
      change Ends settings dialect options store sources (ofEntities g options workers es)
      cases hp : ofEntities g options workers es with
      | error failure => exact .entity hg hes ((hreports failure).mp hp)
      | ok p =>
        have hnone := hreports.exists_ok_iff.mp ⟨p, hp⟩
        exact .done hg hes hnone (covers_of_ofEntities hg hp)

/-- A run, if its pool has a worker, ends as its phases say: with the first failure of the first
phase that has one, or else with what each active entity has on its own.  Its definitions are what
the sources stand for, one by one, and settings that are refused leave no record. -/
theorem build_eq_iff_ends (settings : Sql.Settings) (dialect : Option Value)
    (options : Api.DocumentOptions) (store : Store) (sources : List Source) :
    (∀ outcome, build settings dialect options workers store sources = outcome ↔
      Ends settings dialect options store sources outcome) ∧
    (∀ es, (Source.defineAll store sources).1 = .ok es →
      List.Forall₂ Source.Defines sources es) ∧
    ∀ failure, Sql.Generator.resolve settings dialect none = .error failure → ∀ j,
      (Recorded.buildProject settings dialect options workers store sources).run.run j =
        (.error failure, j) := by
  refine ⟨fun outcome ↦ ?_, fun es ↦ Source.defines_of_defineAll, fun failure hfailure j ↦ ?_⟩
  · constructor
    · intro houtcome
      exact houtcome ▸ ends_build hworkers
    · exact build_of_ends hworkers
  · rw [Recorded.buildProject, hfailure]
    rfl

end Ends

/-! ## A column with too many levels -/

/-- A table whose column has a default of 254 levels. -/
def deepTable : Entity :=
  Sql.tableEntity .json (Validation.nested 253) (Validation.nestedJson 253)

/-- The same table, no longer in use. -/
def retiredTable : Entity :=
  { deepTable with metadata := { deepTable.metadata with active := false } }

theorem build_deepTable :
    Entity.build (Sql.tableColumn .json (Validation.nested 253)) = .ok deepTable :=
  Sql.build_tableColumn_nested 253

theorem not_fitsComponent_deepTable : ¬deepTable.FitsComponent :=
  Entity.not_fitsComponent_of_nested List.mem_cons_self rfl (by decide)

theorem exists_render_sqlite {v : Value} (h : Entity.build v = .ok e) : ∃ g text,
    Sql.Generator.resolve {} (some (.text "sqlite")) none = .ok g ∧ g.render e = .ok text := by
  have hdialect : Sql.Dialect.resolve (.text "sqlite") = .ok .sqlite := rfl
  obtain ⟨g, hg, hprofile, hkept⟩ := Sql.Generator.exists_resolve_named hdialect
  obtain ⟨text, htext⟩ := (Sql.Generator.render_failsWith hprofile hkept h).success
    (Entity.renderFailure?_eq_none_iff.mpr nofun)
  exact ⟨g, text, hg, htext⟩

theorem not_fails_plainTable (hg : Sql.Generator.resolve {} (some (.text "sqlite")) none = .ok g)
    (failure : Failure) : ¬Sql.Generator.plainTableEntity.Fails g failure := by
  obtain ⟨other, text, hother, htext⟩ := exists_render_sqlite Sql.Generator.build_plainTable
  obtain rfl := Except.ok.inj (hother.symm.trans hg)
  rintro (⟨-, hfails⟩ | ⟨-, hdeep⟩)
  · cases htext.symm.trans hfails
  · exact hdeep (Api.fits_iff.mp rfl)

theorem build_eq_iff_ends_deepTable :
    (∀ n, some 4 = some n → 0 < (n : Int)) ∧
      build {} (some (.text "sqlite")) {} (some 4) (.ofCapacity 1)
        [.definition deepTable, .description (.text "Book")] =
          .error (.entity (.notAMapping "str")) ∧
      ∃ p, build {} (some (.text "sqlite")) {} (some 4) (.ofCapacity 1)
          [.definition retiredTable, .definition Sql.Generator.plainTableEntity] = .ok p ∧
        p.entities.map (·.entity) = [Sql.Generator.plainTableEntity] ∧ p.skipped = ["Book"] := by
  have hworkers : ∀ n, some 4 = some n → 0 < (n : Int) := by
    rintro n ⟨⟩
    decide
  obtain ⟨g, -, hg, -⟩ := exists_render_sqlite build_deepTable
  have hends (sources : List Source) :=
    (build_eq_iff_ends hworkers {} (some (.text "sqlite")) {} (.ofCapacity 1) sources).1
  have hrefused : FirstError Source.Refused
      [.definition deepTable, .description (.text "Book")] (.notAMapping "str") :=
    .later (fun _ h ↦ nomatch h) (.here (.description rfl))
  refine ⟨hworkers, (hends _ _).mpr (.source hg hrefused), ?_⟩
  have hdefined : (Source.defineAll (.ofCapacity 1)
      [.definition retiredTable, .definition Sql.Generator.plainTableEntity]).1 =
        .ok [retiredTable, Sql.Generator.plainTableEntity] := rfl
  have hactive : [retiredTable, Sql.Generator.plainTableEntity].filter (·.metadata.active) =
      [Sql.Generator.plainTableEntity] := rfl
  obtain ⟨outcome, houtcome⟩ : ∃ outcome, build {} (some (.text "sqlite")) {} (some 4)
      (.ofCapacity 1) [.definition retiredTable, .definition Sql.Generator.plainTableEntity] =
        outcome := ⟨_, rfl⟩
  cases (hends _ _).mp houtcome with
  | dialect hrefused => cases hrefused
  | naming _ hrefused => cases hrefused
  | source _ hfirst =>
    obtain ⟨source, hmem, error, hrefused⟩ := exists_firstError_iff.mp ⟨_, hfirst⟩
    rcases List.mem_pair.mp hmem with rfl | rfl <;> cases hrefused
  | entity hg hes hfirst =>
    obtain rfl := Except.ok.inj (hes.symm.trans hdefined)
    rw [hactive, firstError_singleton_iff] at hfirst
    exact absurd hfirst (not_fails_plainTable hg _)
  | @done _ _ p hg hes _ hcovers =>
    obtain rfl := Except.ok.inj (hes.symm.trans hdefined)
    exact ⟨p, houtcome, hcovers.active.trans hactive, hcovers.skipped⟩

/-- A table that has a definition and a DDL text, but is no project. -/
theorem build_eq_error_deepTable :
    ∃ text, Entity.build (Sql.tableColumn .json (Validation.nested 253)) = .ok deepTable ∧
      deepTable.metadata.active = true ∧
      Sql.toDdl {} (some (.text "sqlite")) deepTable = .ok text ∧
      build {} (some (.text "sqlite")) {} none (.ofCapacity 256)
        [.description (Sql.tableColumn .json (Validation.nested 253))] =
          .error (.entity .tooDeep) := by
  obtain ⟨g, text, hg, htext⟩ := exists_render_sqlite build_deepTable
  have hdefined : (Source.defineAll (.ofCapacity 256)
      [.description (Sql.tableColumn .json (Validation.nested 253))]).1 = .ok [deepTable] := by
    simp [Source.defineAll, Source.define, Store.build, build_deepTable, Store.serve, Store.add,
      Store.ofCapacity, Store.find?, Store.fresh, Except.map]
  have hfails : deepTable.Fails g (.entity .tooDeep) :=
    .component (fun _ ↦ ⟨text, htext⟩) not_fitsComponent_deepTable
  have hworkers : ∀ n, none = some n → 0 < (n : Int) := by simp
  refine ⟨text, build_deepTable, rfl, ?_, ?_⟩
  · rw [toDdl_eq_render hg, htext]
  · apply build_of_ends hworkers
    exact .entity hg hdefined (.here hfails)

end Project

end EntityCompiler
