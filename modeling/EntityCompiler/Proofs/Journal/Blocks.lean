import EntityCompiler.Proofs.Journal.Columns

/-!
# Blocks within blocks

Programs that open contexts for blocks, one within the other, and that leave records, build entities and
generate artifacts in them.  Wherever such a program is, its context is that of its start with the
arguments of the open blocks over it, the innermost last; and however a block ends, the contexts after it
are those before it.
-/

namespace EntityCompiler.Recorded

open Journal

/-! ## Programs -/

/-- Leaves a record of some logger, with data of its own. -/
def record (logger : String) (component : Option Component) (level : Int) (message : String)
    (data : List (Value × Value)) : Recorded Unit :=
  ExceptT.mk fun j ↦
    (.ok (), j.add { logger, level, message, data := enrich j.context component data })

/-- What a program does between the ends of its blocks. -/
inductive Action : Type → Type
  | record (logger : String) (component : Option Component) (level : Int) (message : String)
      (data : List (Value × Value)) : Action Unit
  | checkpoint (logger name : String) (data : List (Value × Value)) : Action Unit
  /-- Asks for the innermost context. -/
  | context : Action Context
  | build (v : Value) : Action Entity
  | buildSpecification (spec : Specification) : Action Entity
  | prepare (spec : Specification) : Action Entity
  | storeEntity (store : Store) (v : Value) : Action (Stored × Store)
  | storeSpecification (store : Store) (spec : Specification) : Action (Stored × Store)
  | logCounters (store : Store) : Action Unit
  | render (g : Sql.Generator) (e : Entity) : Action String
  | tableStatement (g : Sql.Generator) (e : Entity) : Action (Option String)
  | statements (g : Sql.Generator) (e : Entity) : Action (List String)
  | renderAll (g : Sql.Generator) (es : List Entity) : Action (List String)
  | ddl (settings : Sql.Settings) (dialect : Option Value) (e : Entity) : Action String
  | fullSchema (e : Entity) : Action Validation.Schema
  | shownSchema (e : Entity) : Action Validation.Schema
  | inputSchemas (e : Entity) : Action (Validation.Schema × Validation.Schema)
  | compiled (s : Validation.Schema) : Action Unit
  | component (e : Entity) : Action Json
  | entityDocument (e : Entity) (options : Api.DocumentOptions) : Action Json
  | projectDocument (es : List Entity) (options : Api.DocumentOptions) : Action Json
  | artifacts (settings : Sql.Settings) (dialect : Option Value) (store : Store) (source : Source) :
      Action Artifacts
  | project (settings : Sql.Settings) (dialect : Option Value) (options : Api.DocumentOptions)
      (workers : Option Int) (store : Store) (sources : List Source) : Action Project

/-- What an action does. -/
def Action.run : {α : Type} → Action α → Recorded α
  | _, .record logger part level message data => Recorded.record logger part level message data
  | _, .checkpoint logger name data => Recorded.checkpoint logger name data
  | _, .context => ExceptT.mk fun j ↦ (.ok j.context, j)
  | _, .build v => buildEntity v
  | _, .buildSpecification spec => Recorded.buildSpecification spec
  | _, .prepare spec => Recorded.prepare spec
  | _, .storeEntity store v => Recorded.storeEntity store v
  | _, .storeSpecification store spec => Recorded.storeSpecification store spec
  | _, .logCounters store => Recorded.logCounters store
  | _, .render g e => Recorded.render g e
  | _, .tableStatement g e => tableStatement? g e
  | _, .statements g e => Recorded.statements g e
  | _, .renderAll g es => Recorded.renderAll g es
  | _, .ddl settings dialect e => toDdl settings dialect e
  | _, .fullSchema e => Recorded.fullSchema e
  | _, .shownSchema e => Recorded.shownSchema e
  | _, .inputSchemas e => Recorded.inputSchemas e
  | _, .compiled s => logCompiled s
  | _, .component e => Recorded.component e
  | _, .entityDocument e options => Recorded.entityDocument e options
  | _, .projectDocument es options => Recorded.projectDocument es options
  | _, .artifacts settings dialect store source => buildArtifacts settings dialect store source
  | _, .project settings dialect options workers store sources =>
    buildProject settings dialect options workers store sources

/-- Programs of actions and of blocks with named arguments, which may fail anywhere and may go on after a
failure. -/
inductive Program : Type → Type 1
  | done {α : Type} (a : α) : Program α
  | fail {α : Type} (failure : Failure) : Program α
  | act {α : Type} (action : Action α) : Program α
  | bind {α β : Type} (first : Program α) (next : α → Program β) : Program β
  | block {α : Type} (fields : List (Value × Value)) (body : Program α) : Program α
  | attempt {α : Type} (body : Program α) : Program (Except Failure α)

/-- What a program does. -/
def Program.run : {α : Type} → Program α → Recorded α
  | _, .done a => pure a
  | _, .fail failure => ofResult (.error failure)
  | _, .act action => action.run
  | _, .bind first next => first.run >>= fun a ↦ (next a).run
  | _, .block fields body => withinEntries fields body.run
  | _, .attempt body => outcome body.run

theorem balanced_action {α : Type} (action : Action α) : Balanced action.run := by
  cases action with
  | record => exact fun _ ↦ rfl
  | checkpoint => exact .checkpoint _ _ _
  | context => exact fun _ ↦ rfl
  | build v => exact balanced_buildEntity v
  | buildSpecification spec => exact balanced_buildSpecification spec
  | prepare spec => exact balanced_prepare spec
  | storeEntity store v => exact balanced_storeEntity store v
  | storeSpecification store spec => exact balanced_storeSpecification store spec
  | logCounters store => exact balanced_logCounters store
  | render g e => exact balanced_render g e
  | tableStatement g e => exact balanced_tableStatement? g e
  | statements g e => exact balanced_statements g e
  | renderAll g es => exact balanced_renderAll g es
  | ddl settings dialect e => exact balanced_toDdl e settings dialect
  | fullSchema e => exact balanced_fullSchema e
  | shownSchema e => exact balanced_shownSchema e
  | inputSchemas e => exact balanced_inputSchemas e
  | compiled s => exact .log _ _ _
  | component e => exact balanced_component e
  | entityDocument e options => exact balanced_entityDocument e options
  | projectDocument es options => exact balanced_projectDocument es options
  | artifacts settings dialect store source => exact balanced_buildArtifacts settings dialect store source
  | project settings dialect options workers store sources =>
    exact balanced_buildProject settings dialect options workers store sources

/-- By induction on the program: actions are balanced, and blocks and sequences keep that. -/
theorem Program.balanced {α : Type} (p : Program α) : Balanced p.run := by
  induction p with
  | done a => exact .pure a
  | fail failure => exact .ofResult _
  | act action => exact balanced_action action
  | bind first next hfirst hnext => exact hfirst.bind hnext
  | block fields body hbody => exact hbody.withinEntries fields
  | attempt body hbody => exact hbody.outcome

/-! ## Open blocks -/

/-- Whether a program that starts with a journal comes to a part of it, with the named arguments of the
blocks that are open there, the innermost first, and with the journal that the part starts with. -/
inductive Program.Reaches : {α β : Type} → Program α → Journal → List (List (Value × Value)) →
    Program β → Journal → Prop
  | here {α : Type} {p : Program α} {j : Journal} : Reaches p j [] p j
  | first {α β γ : Type} {p : Program α} {next : α → Program β} {q : Program γ} {j k : Journal}
      {blocks : List (List (Value × Value))} :
      Reaches p j blocks q k → Reaches (.bind p next) j blocks q k
  | next {α β γ : Type} {p : Program α} {next : α → Program β} {q : Program γ} {j k : Journal}
      {blocks : List (List (Value × Value))} {a : α} : result p.run j = .ok a →
      Reaches (next a) (after p.run j) blocks q k → Reaches (.bind p next) j blocks q k
  | block {α β : Type} {p : Program α} {q : Program β} {j k : Journal}
      {blocks : List (List (Value × Value))} {fields : List (Value × Value)} {change : Change} :
      Change.ofEntries fields = .ok change → Reaches p (j.enter change) blocks q k →
      Reaches (.block fields p) j (blocks ++ [fields]) q k
  | attempt {α β : Type} {p : Program α} {q : Program β} {j k : Journal}
      {blocks : List (List (Value × Value))} :
      Reaches p j blocks q k → Reaches (.attempt p) j blocks q k

end EntityCompiler.Recorded

namespace EntityCompiler.Journal

open Value

/-- What the contexts of a journal are inside of blocks with given arguments, the innermost first, that
have been opened one within the other. -/
structure Inside (blocks : List (List (Value × Value))) (j k : Journal) : Prop where
  opened : ∃ contexts, contexts.length = blocks.length ∧ k.contexts = contexts ++ j.contexts
  /-- The innermost block that sets a field decides. -/
  value (f : Field) : k.context.value f =
    (blocks.findSome? (Change.given? f)).getD (j.context.value f)
  extra : k.context.extra =
    blocks.foldr (fun fields extra ↦ putEntries (Change.givenExtra fields) extra) j.context.extra
  /-- The innermost block with an extra entry under a key decides. -/
  entry (key : String) : lookup? key k.context.extra =
    (blocks.findSome? fun fields ↦ latest? key (Change.givenExtra fields)).or
      (lookup? key j.context.extra)

namespace Inside

variable {blocks : List (List (Value × Value))} {fields : List (Value × Value)} {change : Change}
  {i j k : Journal}

theorem refl (j : Journal) : Inside [] j j where
  opened := ⟨[], rfl, rfl⟩
  value _ := rfl
  extra := rfl
  entry _ := rfl

/-- Only the contexts matter of the journal before the blocks. -/
theorem of_contexts_eq (h : Inside blocks i k) (hcontexts : i.contexts = j.contexts) :
    Inside blocks j k := by
  have hcontext : i.context = j.context := congrArg (·.headD {}) hcontexts
  exact ⟨hcontexts ▸ h.opened, hcontext ▸ h.value, hcontext ▸ h.extra, hcontext ▸ h.entry⟩

/-- The arguments of one more block around the others have an effect only where these have none. -/
theorem around (hchange : Change.ofEntries fields = .ok change) (h : Inside blocks (j.enter change) k) :
    Inside (blocks ++ [fields]) j k := by
  obtain rfl := Change.eq_of_ofEntries hchange
  obtain ⟨contexts, hlength, hcontexts⟩ := h.opened
  refine { opened := ?_, value := fun f ↦ ?_, extra := ?_, entry := fun key ↦ ?_ }
  · refine ⟨contexts ++ [(j.enter _).context], ?_, hcontexts.trans (List.append_cons _ _ _)⟩
    rw [List.length_append, List.length_append, hlength]
    rfl
  · rw [h.value f, List.findSome?_append, List.findSome?_singleton, Option.getD_or]
    rfl
  · rw [h.extra, List.foldr_append]
    rfl
  · rw [h.entry key, List.findSome?_append, List.findSome?_singleton, Option.or_assoc]
    exact congrArg _ (lookup?_overwritten _ _ _)

end Inside

end EntityCompiler.Journal

namespace EntityCompiler.Recorded

open Journal

/-- By induction on how a program comes to a part of it. -/
theorem Program.Reaches.inside {α β : Type} {p : Program α} {q : Program β} {j k : Journal}
    {blocks : List (List (Value × Value))} (h : p.Reaches j blocks q k) : Inside blocks j k := by
  induction h with
  | here => exact .refl _
  | first _ ih => exact ih
  | next _ _ ih => exact ih.of_contexts_eq (balanced _ _)
  | block hchange _ ih => exact ih.around hchange
  | attempt _ ih => exact ih

/-- A record has under the name of a field what the innermost context has there. -/
theorem exists_record (j : Journal) (logger : String) (part : Option Component) (level : Int)
    (message : String) (data : List (Value × Value)) :
    ∃ left, (after (record logger part level message data) j).records = j.records ++ [left] ∧
      ∀ f : Field, Value.lookup? f.name left.data =
        ((Value.latest? f.name j.context.extra).or (j.context.set? f)).or (Value.lookup? f.name data) :=
  ⟨_, rfl, lookup?_enrich j.context part data⟩

/-- A block with an argument that is not known fails before it opens a context or leaves a record. -/
theorem Program.run_block_of_not_known {α : Type} (body : Program α) {fields : List (Value × Value)}
    (h : ∃ argument ∈ fields, ¬Change.Known argument) (j : Journal) :
    (Program.block fields body).run.run.run j = (.error .unknownField, j) := by
  rw [Program.run, withinEntries, Change.ofEntries_of_not_known h]
  rfl

/-- The contexts are a balanced stack.  Wherever a program of blocks is, each field has the value that the
innermost open block gives it, so has each extra entry, and records have these values; what comes then,
whether it succeeds or fails, leaves the contexts as they were.  A block with an argument that is not known
opens nothing.  Builds of entities, of DDL texts and of projects leave the contexts as they were, whatever
their outcome, although they open one for each column; so one worker may make the artifacts of several
entities.  A build that fails at a column has left one record for each column before it. -/
theorem Program.contexts_balanced (j : Journal) :
    (∀ {α : Type} (p : Program α), (after p.run j).contexts = j.contexts ∧
      ∀ {β : Type} {blocks : List (List (Value × Value))} {q : Program β} {k : Journal},
        p.Reaches j blocks q k → Inside blocks j k ∧ (after q.run k).contexts = k.contexts) ∧
    (∀ logger part level message data, ∃ left,
      (after (record logger part level message data) j).records = j.records ++ [left] ∧
        ∀ f : Field, Value.lookup? f.name left.data =
          ((Value.latest? f.name j.context.extra).or (j.context.set? f)).or
            (Value.lookup? f.name data)) ∧
    (∀ {α : Type} (body : Program α) {fields : List (Value × Value)},
      (∃ argument ∈ fields, ¬Change.Known argument) →
        (Program.block fields body).run.run.run j = (.error .unknownField, j)) ∧
    (∀ v, (after (buildEntity v) j).contexts = j.contexts) ∧
    (∀ g e, (after (render g e) j).contexts = j.contexts ∧ renderByColumn g e = render g e ∧
      logPropertiesByColumn e = logProperties e) ∧
    (∀ settings dialect options workers store sources,
      (after (buildProject settings dialect options workers store sources) j).contexts = j.contexts) ∧
    (∀ (g : Sql.Generator) (es : List Entity),
      (es.mapM fun e ↦ detached (artifacts g e)) = detached (es.mapM (artifacts g))) ∧
    (∀ {spec : Specification} {error : EntityError}, Naming.isPascalCase spec.name = true →
      Specification.buildColumns spec.name spec.columns = .error error →
        ∃ k passed, spec.FailsAt k passed error) ∧
    ∀ {spec : Specification} {k : Nat} {passed : List (String × Column)} {error : EntityError},
      spec.FailsAt k passed error → ∀ {α : Type} {build : Recorded α}, Builds spec build →
        LeavesPassed build j spec k passed error := by
  refine ⟨fun p ↦ ⟨p.balanced j, fun hreaches ↦ ⟨hreaches.inside, balanced _ _⟩⟩, exists_record j,
    ?_, ?_, ?_, ?_, ?_, ?_, ?_⟩
  · exact fun body _ hunknown ↦ body.run_block_of_not_known hunknown j
  · exact fun v ↦ balanced_buildEntity v j
  · intro g e
    exact ⟨balanced_render g e j, renderByColumn_eq_render g e, logPropertiesByColumn_eq_logProperties e⟩
  · exact fun settings dialect options workers store sources ↦
      balanced_buildProject settings dialect options workers store sources j
  · exact fun g es ↦ mapM_detached (balanced_artifacts g) es
  · exact Specification.exists_failsAt
  · exact fun hfails _ _ hbuilds ↦ hbuilds.leavesPassed hfails j

/-! ### A build within blocks -/

/-- The journal of a caller who works on a dialect on request. -/
def requested : Journal where
  contexts := [{
    value := fun
      | .dialect => .text "sqlite"
      | _ => .null
    extra := [(.text "request", .int 7)] }]

/-- The arguments of a block about a shelf. -/
def aboutShelf : List (Value × Value) :=
  [(.text "entity", .text "Shelf"),
    (.text "extra", .dict [(.text "request", .int 8), (.text "shelf", .text "A")])]

/-- The arguments of a block about a part of the shelf. -/
def aboutPart : List (Value × Value) :=
  [(.text "operation", .text "sort"), (.text "extra", .dict [(.text "shelf", .text "B")])]

/-- The description of a book whose second column has no type. -/
def bookDraft : Value :=
  .ofFields [("name", .text "Book"), ("columns", .ofFields
    [("title", .ofFields [("type", .text "string")]), ("price", .ofFields [("type", .text "money")])])]

/-- What `bookDraft` describes. -/
def bookSpecification : Specification where
  name := "Book"
  columns := [("title", { type := .text "string" }), ("price", { type := .text "money" })]

/-- A program that leaves a record about the shelf and builds the book in a block within. -/
def shelving : Program Entity :=
  .block aboutShelf (.bind (.act (.record "shelves" none Level.info "Sorting" [])) fun _ ↦
    .block aboutPart (.act (.build bookDraft)))

theorem Program.contexts_balanced_shelving :
    ∃ k, shelving.Reaches requested [aboutPart, aboutShelf] (.act (.build bookDraft)) k ∧
      k.context.value .entity = .text "Shelf" ∧ k.context.value .operation = .text "sort" ∧
      k.context.value .dialect = .text "sqlite" ∧
      Value.lookup? "request" k.context.extra = some (.int 8) ∧
      Value.lookup? "shelf" k.context.extra = some (.text "B") ∧
      (after shelving.run requested).contexts = requested.contexts ∧
      (∃ argument ∈ [(Value.text "table", Value.null)], ¬Change.Known argument) ∧
      (Program.block [(.text "table", .null)] shelving).run.run.run requested =
        (.error .unknownField, requested) ∧
      Naming.isPascalCase bookSpecification.name = true ∧
      Specification.buildColumns bookSpecification.name bookSpecification.columns =
        .error (.invalidColumnType "price" (.text "money") (some "Book")) ∧
      (∃ k passed, bookSpecification.FailsAt k passed
        (.invalidColumnType "price" (.text "money") (some "Book"))) ∧
      bookSpecification.FailsAt 1 [("title", { type := .primitive .string })]
        (.invalidColumnType "price" (.text "money") (some "Book")) ∧
      Builds bookSpecification (buildEntity bookDraft) ∧
      LeavesPassed (buildEntity bookDraft) k bookSpecification 1
        [("title", { type := .primitive .string })]
        (.invalidColumnType "price" (.text "money") (some "Book")) := by
  have hunknown : ∃ argument ∈ [(Value.text "table", Value.null)], ¬Change.Known argument := by
    refine ⟨_, List.mem_cons_self, fun hknown ↦ ?_⟩
    obtain ⟨change, hchange⟩ := Change.exists_put hknown {}
    cases hchange
  have hname : Naming.isPascalCase bookSpecification.name = true := by decide
  have hcolumns : Specification.buildColumns bookSpecification.name bookSpecification.columns =
      .error (.invalidColumnType "price" (.text "money") (some "Book")) := by rfl
  have hfails : bookSpecification.FailsAt 1 [("title", { type := .primitive .string })]
      (.invalidColumnType "price" (.text "money") (some "Book")) :=
    ⟨hname, by rfl, _, rfl, by rfl⟩
  have hbuilds : Builds bookSpecification (buildEntity bookDraft) := .entity (by rfl)
  obtain ⟨hprograms, -, hblocks, -, -, -, -, hcolumn, -⟩ := contexts_balanced requested
  obtain ⟨hcontexts, hreached⟩ := hprograms shelving
  obtain ⟨shelf, hshelf⟩ : ∃ change, Change.ofEntries aboutShelf = .ok change := ⟨_, rfl⟩
  obtain ⟨part, hpart⟩ : ∃ change, Change.ofEntries aboutPart = .ok change := ⟨_, rfl⟩
  obtain ⟨k, hk⟩ : ∃ k, shelving.Reaches requested ([] ++ [aboutPart] ++ [aboutShelf])
      (.act (.build bookDraft)) k :=
    ⟨_, .block hshelf (.next rfl (.block hpart .here))⟩
  have hinside := (hreached hk).1
  obtain ⟨-, -, -, -, -, -, -, -, hleaves⟩ := contexts_balanced k
  exact ⟨k, hk, hinside.value .entity, hinside.value .operation, hinside.value .dialect,
    hinside.entry "request", hinside.entry "shelf", hcontexts, hunknown, hblocks shelving hunknown,
    hname, hcolumns, hcolumn hname hcolumns, hfails, hbuilds, hleaves hfails hbuilds⟩

end EntityCompiler.Recorded
