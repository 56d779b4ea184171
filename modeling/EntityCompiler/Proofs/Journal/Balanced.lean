import EntityCompiler.Proofs.Artifacts

/-!
# Closed contexts

A run is balanced if it leaves the open contexts as it has found them, whether it succeeds or fails.
Blocks of balanced runs are balanced, and so is everything that builds entities or generates artifacts.
-/

namespace EntityCompiler.Recorded

open Journal

variable {α β : Type}

/-- The journal after a run that starts with a given one. -/
def after (run : Recorded α) (j : Journal) : Journal :=
  (run.run.run j).2

/-- Whether a run leaves the open contexts as they were, however it ends. -/
def Balanced (run : Recorded α) : Prop :=
  ∀ j, (after run j).contexts = j.contexts

/-! ## Steps -/

section Steps

variable {x y : Recorded α} {f : α → Recorded β} {j : Journal}

/-- Runs with the same outcomes and the same journals are the same. -/
theorem ext_run (hresult : ∀ j, result x j = result y j) (hafter : ∀ j, after x j = after y j) :
    x = y := by
  funext j
  exact Prod.ext (hresult j) (hafter j)

theorem run_bind (x : Recorded α) (f : α → Recorded β) (j : Journal) :
    (x >>= f).run.run j = (ExceptT.bindCont f (result x j)).run (after x j) :=
  rfl

theorem run_of_result {outcome : Except Failure α} (h : result x j = outcome) :
    x.run.run j = (outcome, after x j) :=
  Prod.ext h rfl

/-- A step that succeeds is followed by the next one. -/
theorem run_bind_of_ok {a : α} {k : Journal} (h : x.run.run j = (.ok a, k)) :
    (x >>= f).run.run j = (f a).run.run k := by
  rw [run_bind, result, after, h]
  rfl

/-- A step that fails is the last one. -/
theorem run_bind_of_error {failure : Failure} {k : Journal} (h : x.run.run j = (.error failure, k)) :
    (x >>= f).run.run j = (.error failure, k) := by
  rw [run_bind, result, after, h]
  rfl

theorem result_bind_of_ok {a : α} (h : result x j = .ok a) :
    result (x >>= f) j = result (f a) (after x j) :=
  congrArg Prod.fst (run_bind_of_ok (run_of_result h))

theorem after_bind_of_ok {a : α} (h : result x j = .ok a) :
    after (x >>= f) j = after (f a) (after x j) :=
  congrArg Prod.snd (run_bind_of_ok (run_of_result h))

theorem result_bind_of_error {failure : Failure} (h : result x j = .error failure) :
    result (x >>= f) j = .error failure :=
  congrArg Prod.fst (run_bind_of_error (run_of_result h))

theorem after_bind_of_error {failure : Failure} (h : result x j = .error failure) :
    after (x >>= f) j = after x j :=
  congrArg Prod.snd (run_bind_of_error (run_of_result h))

/-- A check that a build has passed is not seen in a run. -/
theorem ofBuild_bind_of_ok {outcome : Except EntityError α} {a : α} (h : outcome = .ok a) :
    ofBuild outcome >>= f = f a := by
  rw [h]
  rfl

theorem run_within_of_run {change : Change} {outcome : Except Failure α} {k : Journal}
    (h : x.run.run (j.enter change) = (outcome, k)) :
    (within change x).run.run j = (outcome, k.leave) :=
  congrArg (fun ended : Except Failure α × Journal ↦ (ended.1, ended.2.leave)) h

theorem after_within (change : Change) (body : Recorded α) (j : Journal) :
    after (within change body) j = (after body (j.enter change)).leave :=
  rfl

theorem after_detached (body : Recorded α) (j : Journal) :
    after (detached body) j =
      { contexts := j.contexts, records := (after body { j with contexts := [] }).records } :=
  rfl

theorem result_detached (body : Recorded α) (j : Journal) :
    result (detached body) j = result body { j with contexts := [] } :=
  rfl

end Steps

namespace Balanced

variable {x : Recorded α} {f : α → Recorded β}

theorem ofResult (outcome : Except Failure α) : Balanced (ofResult outcome) :=
  fun _ ↦ rfl

theorem ofBuild (outcome : Except EntityError α) : Balanced (ofBuild outcome) :=
  ofResult _

theorem pure (a : α) : Balanced (Pure.pure a : Recorded α) :=
  fun _ ↦ rfl

/-- Balanced steps one after the other are balanced, also if one of them fails. -/
theorem bind (hx : Balanced x) (hf : ∀ a, Balanced (f a)) : Balanced (x >>= f) := by
  intro j
  cases h : result x j with
  | ok a =>
    rw [after_bind_of_ok h, hf a]
    exact hx j
  | error failure =>
    rw [after_bind_of_error h]
    exact hx j

theorem map (hx : Balanced x) (g : α → β) : Balanced (g <$> x) :=
  hx.bind fun a ↦ pure (g a)

/-- A block closes the context that it opens, whether its body succeeds or fails. -/
theorem within {body : Recorded α} (h : Balanced body) (change : Change) :
    Balanced (within change body) := by
  intro j
  rw [after_within, leave, h]
  rfl

/-- A block does not open a context under a name that is not known. -/
theorem withinEntries {body : Recorded α} (h : Balanced body) (fields : List (Value × Value)) :
    Balanced (withinEntries fields body) :=
  (ofResult _).bind fun change ↦ h.within change

theorem detached (body : Recorded α) : Balanced (detached body) :=
  fun _ ↦ rfl

theorem outcome {body : Recorded α} (h : Balanced body) : Balanced (outcome body) :=
  h

theorem log (component : Component) (level : Int) (message : String) :
    Balanced (log component level message) :=
  fun _ ↦ rfl

theorem checkpoint (logger name : String) (data : List (Value × Value)) :
    Balanced (checkpoint logger name data) :=
  fun _ ↦ rfl

/-- A choice of the first step. -/
theorem choice {condition : Prop} [Decidable condition] {y : Recorded α} (hx : Balanced x)
    (hy : Balanced y) (hf : ∀ a, Balanced (f a)) :
    Balanced (if condition then x >>= f else y >>= f) := by
  split
  · exact hx.bind hf
  · exact hy.bind hf

/-- A first step that is taken under a condition only. -/
theorem guarded {condition : Prop} [Decidable condition] {step : Recorded Unit}
    {rest : Unit → Recorded β} (hstep : Balanced step) (hrest : ∀ u, Balanced (rest u)) :
    Balanced (if condition then step >>= rest else rest ()) :=
  hstep.choice (pure ()) hrest

theorem mapM {run : α → Recorded β} (h : ∀ a, Balanced (run a)) (items : List α) :
    Balanced (items.mapM run) := by
  induction items with
  | nil => exact pure []
  | cons item items ih =>
    rw [List.mapM_cons]
    exact (h item).bind fun b ↦ ih.bind fun bs ↦ pure (b :: bs)

theorem forM {run : α → Recorded Unit} (h : ∀ a, Balanced (run a)) (items : List α) :
    Balanced (items.forM run) := by
  induction items with
  | nil => exact pure ()
  | cons item items ih => exact (h item).bind fun _ ↦ ih

end Balanced

/-! ## Builds -/

theorem balanced_buildColumn (entity name : String) (spec : ColumnSpecification) :
    Balanced (buildColumn entity name spec) :=
  .within (.bind (.ofBuild _) fun c ↦ .bind (.log _ _ _) fun _ ↦ .pure c) _

theorem balanced_buildColumns (entity : String) (specs : List (String × ColumnSpecification)) :
    Balanced (buildColumns entity specs) := by
  induction specs with
  | nil => exact .pure []
  | cons spec specs ih =>
    exact .bind (balanced_buildColumn _ _ _) fun column ↦ ih.bind fun columns ↦ .pure _

theorem balanced_prepare (spec : Specification) : Balanced (prepare spec) := by
  apply Balanced.bind (.ofBuild _)
  intro _
  apply Balanced.guarded (.ofBuild _)
  intro _
  apply Balanced.bind (.within (balanced_buildColumns _ _) _)
  intro columns
  exact .bind (.ofBuild _) fun _ ↦ .pure _

theorem balanced_buildSpecification (spec : Specification) : Balanced (buildSpecification spec) :=
  .bind (balanced_prepare spec) fun e ↦ .bind (.log _ _ _) fun _ ↦ .pure e

theorem balanced_buildEntity (v : Value) : Balanced (buildEntity v) :=
  .bind (.ofBuild _) balanced_buildSpecification

theorem balanced_logOutcome (stored : Stored) (outcome : Store.Outcome) :
    Balanced (logOutcome stored outcome) := by
  cases outcome with
  | unstored => exact .pure ()
  | hit => exact .log _ _ _
  | miss evicted => exact .forM (fun _ ↦ .log _ _ _) evicted

theorem balanced_storeSpecification (store : Store) (spec : Specification) :
    Balanced (storeSpecification store spec) :=
  .bind (balanced_prepare spec) fun _ ↦ .bind (balanced_logOutcome _ _) fun _ ↦ .pure _

theorem balanced_storeEntity (store : Store) (v : Value) : Balanced (storeEntity store v) :=
  .bind (.ofBuild _) (balanced_storeSpecification store)

theorem balanced_logCounters (store : Store) : Balanced (logCounters store) :=
  .log _ _ _

/-! ## Generation -/

variable (g : Sql.Generator) (e : Entity)

theorem balanced_render : Balanced (render g e) :=
  .within (.bind (.ofResult _) fun text ↦ .bind (.ofResult _) fun _ ↦
    .bind (.log _ _ _) fun _ ↦ .pure text) _

theorem balanced_renderAll (es : List Entity) : Balanced (renderAll g es) :=
  .bind (.ofResult _) fun statements ↦ .bind (.log _ _ _) fun _ ↦ .pure statements

theorem balanced_toDdl (settings : Sql.Settings) (dialect : Option Value) :
    Balanced (toDdl settings dialect e) :=
  .bind (.ofResult _) fun g ↦ balanced_render g e

theorem balanced_fullSchema : Balanced (fullSchema e) :=
  .within (.bind (.log _ _ _) fun _ ↦ .pure _) _

theorem balanced_shownSchema : Balanced (shownSchema e) :=
  .within (.bind (.log _ _ _) fun _ ↦ .pure _) _

theorem balanced_inputSchemas : Balanced (inputSchemas e) :=
  .within (.bind (.log _ _ _) fun _ ↦ .pure _) _

theorem balanced_logProperties : Balanced (logProperties e) :=
  .within (.log _ _ _) _

theorem balanced_component : Balanced (component e) :=
  .bind (balanced_logProperties e) fun _ ↦ .ofBuild _

theorem balanced_entityDocument (options : Api.DocumentOptions) :
    Balanced (entityDocument e options) :=
  .bind (balanced_logProperties e) fun _ ↦ .bind (.ofBuild _) fun document ↦
    .bind (.within (.log _ _ _) _) fun _ ↦ .pure document

theorem balanced_projectDocument (es : List Entity) (options : Api.DocumentOptions) :
    Balanced (projectDocument es options) := by
  refine .bind (.forM balanced_logProperties _) fun _ ↦ .bind (.within ?_ _) fun _ ↦ .ofBuild _
  apply Balanced.guarded (.log _ _ _)
  exact fun _ ↦ .log _ _ _

theorem balanced_artifacts : Balanced (artifacts g e) := by
  apply Balanced.within
  apply Balanced.choice (.map (balanced_render g e) some) (.pure none)
  intro ddl
  refine .bind (balanced_fullSchema e) fun full ↦ .bind (balanced_shownSchema e) fun shown ↦ ?_
  refine .bind (balanced_inputSchemas e) fun inputs ↦ .bind (balanced_component e) fun component ↦ ?_
  exact .bind (.log _ _ _) fun _ ↦ .pure _

theorem balanced_define (store : Store) (source : Source) : Balanced (define store source) := by
  cases source with
  | definition e => exact .pure _
  | description v => exact .bind (balanced_storeEntity store v) fun _ ↦ .pure _

theorem balanced_defineAll (store : Store) (sources : List Source) :
    Balanced (defineAll store sources) := by
  induction sources generalizing store with
  | nil => exact .pure []
  | cons source sources ih =>
    exact .bind (balanced_define store source) fun step ↦ .bind (ih step.2) fun es ↦ .pure _

theorem balanced_buildArtifacts (settings : Sql.Settings) (dialect : Option Value) (store : Store)
    (source : Source) : Balanced (buildArtifacts settings dialect store source) :=
  .bind (.ofResult _) fun g ↦ .bind (balanced_define store source) fun step ↦
    balanced_artifacts g step.1

theorem balanced_projectOfEntities (options : Api.DocumentOptions) (workers : Option Int)
    (es : List Entity) : Balanced (projectOfEntities g options workers es) := by
  apply Balanced.within
  apply Balanced.bind (.log _ _ _)
  intro _
  apply Balanced.guarded (.ofResult _)
  intro _
  apply Balanced.bind (.mapM (fun e ↦ .detached _) _)
  intro entities
  exact .bind (balanced_projectDocument _ options) fun document ↦
    .bind (.checkpoint _ _ _) fun _ ↦ .pure _

theorem balanced_buildProject (settings : Sql.Settings) (dialect : Option Value)
    (options : Api.DocumentOptions) (workers : Option Int) (store : Store) (sources : List Source) :
    Balanced (buildProject settings dialect options workers store sources) :=
  .bind (.ofResult _) fun g ↦ .bind (balanced_defineAll store sources) fun es ↦
    balanced_projectOfEntities g options workers es

/-! ## Workers -/

/-- What steps do that see no open context is the same whether the contexts are put aside once for all
of them or for each of them anew. -/
theorem detached_bind {x : Recorded α} (hx : Balanced x) (f : α → Recorded β) :
    detached (x >>= f) = detached x >>= fun a ↦ detached (f a) := by
  have hclosed (j : Journal) : { contexts := [], records := (after x { j with contexts := [] }).records } =
      after x { j with contexts := [] } :=
    congrArg (Journal.mk · _) (hx { j with contexts := [] }).symm
  apply ext_run <;> intro j
  · cases h : result x { j with contexts := [] } with
    | ok a =>
      have hstep : result (detached x) j = .ok a := h
      rw [result_detached, result_bind_of_ok h, result_bind_of_ok hstep, result_detached,
        after_detached, hclosed]
    | error failure =>
      have hstep : result (detached x) j = .error failure := h
      rw [result_detached, result_bind_of_error h, result_bind_of_error hstep]
  · cases h : result x { j with contexts := [] } with
    | ok a =>
      have hstep : result (detached x) j = .ok a := h
      rw [after_detached, after_bind_of_ok h, after_bind_of_ok hstep, after_detached, after_detached,
        hclosed]
    | error failure =>
      have hstep : result (detached x) j = .error failure := h
      rw [after_detached, after_bind_of_error h, after_bind_of_error hstep, after_detached]

theorem mapM_detached {run : α → Recorded β} (h : ∀ a, Balanced (run a)) (items : List α) :
    (items.mapM fun a ↦ detached (run a)) = detached (items.mapM run) := by
  induction items with
  | nil => rfl
  | cons item items ih =>
    rw [List.mapM_cons, List.mapM_cons, ih, detached_bind (h item)]
    congr 1
    funext b
    rw [detached_bind (.mapM h items)]
    rfl

end EntityCompiler.Recorded
