import EntityCompiler.Journal.Building
import EntityCompiler.Project

/-!
# Recorded generation

The generation of artifacts that leaves a record of every artifact.  Each entity of a project is
worked on in a context of its own, which does not inherit from that of the project.
-/

namespace EntityCompiler.Recorded

open Journal

/-! ## DDL -/

/-- The DDL text of an entity. -/
def render (g : Sql.Generator) (e : Entity) : Recorded String :=
  within (.ofFields [(.entity, e.name), (.dialect, g.profile.name), (.artifact, "ddl")]) do
    let text ← ofResult (g.render e)
    let statements ← ofResult (g.statements e)
    let message :=
      if !e.table then "Entity " ++ e.name ++ " is not a table; no DDL"
      else if statements.isEmpty then "Entity " ++ e.name ++ " has no stored columns; no DDL"
      else
        "Generated " ++ Numeral.ofNat statements.length ++ " " ++ g.profile.name ++
          " statements for " ++ e.name
    log .ddl Level.debug message
    return text

/-- The statements for several entities. -/
def renderAll (g : Sql.Generator) (es : List Entity) : Recorded (List String) := do
  let statements ← ofResult (g.renderAll es)
  log .ddl Level.info
    ("Generated " ++ Numeral.ofNat statements.length ++ " " ++ g.profile.name ++ " DDL statements")
  return statements

/-- The DDL text of an entity under given settings. -/
def toDdl (settings : Sql.Settings) (dialect : Option Value) (e : Entity) : Recorded String := do
  let g ← ofResult (Sql.Generator.resolve settings dialect none)
  render g e

/-! ## Schemas -/

/-- The schema of all columns. -/
def fullSchema (e : Entity) : Recorded Validation.Schema :=
  within (.ofFields [(.entity, e.name), (.artifact, "validation")]) do
    let s := Validation.Schema.full e
    log .validation Level.debug
      ("Validation schema for " ++ e.name ++ ": " ++ Numeral.ofNat s.fields.length ++
        " fields, required=" ++ Value.displayNames s.requiredFields)
    return s

/-- The schema of what the API shows. -/
def shownSchema (e : Entity) : Recorded Validation.Schema :=
  within (.ofFields [(.entity, e.name), (.artifact, "public")]) do
    let s := Validation.Schema.shown e
    log .validation Level.debug
      ("Public schema for " ++ e.name ++ ": " ++ Value.displayNames s.fieldNames)
    return s

/-- The schemas of what clients send to create and to update a record. -/
def inputSchemas (e : Entity) : Recorded (Validation.Schema × Validation.Schema) :=
  within (.ofFields [(.entity, e.name), (.artifact, "inputs")]) do
    let create := Validation.Schema.create e
    log .validation Level.debug
      ("Input schemas for " ++ e.name ++ ": writable=" ++ Value.displayNames create.fieldNames ++
        ", create requires " ++ Value.displayNames create.requiredFields)
    return (create, .update e)

/-- The record of the compiled form of a schema. -/
def logCompiled (s : Validation.Schema) : Recorded Unit :=
  log .validation Level.debug
    ("Compiled validation model " ++ s.modelName ++ " (" ++ Numeral.ofNat s.fields.length ++
      " fields)")

/-! ## API documents -/

/-- The record of the properties of a component. -/
def logProperties (e : Entity) : Recorded Unit :=
  within (.ofFields [(.entity, e.name), (.artifact, "component")]) do
    let shown := e.publicColumns.length
    log .openapi Level.debug
      ("Component " ++ e.name ++ ": " ++ Numeral.ofNat shown ++ " properties (" ++
        Numeral.ofNat (e.columns.length - shown) ++ " hidden)")

/-- The component of an entity. -/
def component (e : Entity) : Recorded Json := do
  logProperties e
  ofBuild (Api.component e)

/-- The document of one entity. -/
def entityDocument (e : Entity) (options : Api.DocumentOptions) : Recorded Json := do
  logProperties e
  let document ← ofBuild (Api.entityDocument e options)
  within (.ofFields [(.entity, e.name), (.artifact, "document")])
    (log .openapi Level.debug
      ("API document for " ++ e.name ++ " (" ++ options.openapiVersion ++ ")"))
  return document

/-- The names of the entities that are no part of a document. -/
def undocumented (es : List Entity) : List String :=
  (es.filter fun e ↦ !e.isDocumented).map (·.name)

/-- The document of several entities. -/
def projectDocument (es : List Entity) (options : Api.DocumentOptions) : Recorded Json := do
  (es.filter (·.isDocumented)).forM logProperties
  within (.ofFields [(.artifact, "document")]) do
    if !(undocumented es).isEmpty then
      log .openapi Level.debug
        ("Skipped undocumented entities: " ++ Value.displayNames (undocumented es))
    log .openapi Level.info
      ("Generated API document with " ++ Numeral.ofNat (Api.documented es).length ++
        " component(s)")
  ofBuild (Api.projectDocument es options)

/-! ## Artifacts -/

/-- The artifacts of an entity. -/
def artifacts (g : Sql.Generator) (e : Entity) : Recorded Artifacts :=
  within (.ofFields [(.entity, e.name), (.dialect, g.profile.name), (.operation, "generate")]) do
    let ddl ← if e.table then some <$> render g e else pure none
    let full ← fullSchema e
    let shown ← shownSchema e
    let (create, update) ← inputSchemas e
    let component ← component e
    log .pipeline Level.debug ("Generated artifacts for " ++ e.name)
    return { entity := e, ddl, full, shown, create, update, component }

/-- The definition of a source, and the store afterwards. -/
def define (store : Store) : Source → Recorded (Entity × Store)
  | .definition e => pure (e, store)
  | .description v => do
    let (stored, after) ← storeEntity store v
    return (stored.entity, after)

/-- The definitions of several sources, up to the first that has none. -/
def defineAll (store : Store) : List Source → Recorded (List Entity)
  | [] => pure []
  | source :: rest => do
    let (e, after) ← define store source
    let es ← defineAll after rest
    return e :: es

/-- The artifacts of one source. -/
def buildArtifacts (settings : Sql.Settings) (dialect : Option Value) (store : Store)
    (source : Source) : Recorded Artifacts := do
  let g ← ofResult (Sql.Generator.resolve settings dialect none)
  let (e, _) ← define store source
  artifacts g e

/-! ## Projects -/

/-- What the checkpoint of a finished project says. -/
def projectSummary (entities : List Artifacts) (skipped : List String) : List (Value × Value) :=
  [(.text "entities", .list (entities.map fun a ↦ .text a.name)),
    (.text "skipped", .list (skipped.map .text)),
    (.text "tables", .int (entities.filter (·.ddl.isSome)).length)]

/-- The artifacts of definitions. -/
def projectOfEntities (g : Sql.Generator) (options : Api.DocumentOptions) (workers : Option Int)
    (es : List Entity) : Recorded Project :=
  within (.ofFields [(.dialect, g.profile.name), (.operation, "build_project_artifacts")]) do
    let active := Project.active es
    let skipped := Project.skippedNames es
    log .pipeline Level.info
      ("Generating artifacts for " ++ Numeral.ofNat active.length ++ " entities (" ++
        Numeral.ofNat skipped.length ++ " inactive skipped)")
    if !active.isEmpty && workers.any (· ≤ 0) then
      ofResult (.error .noWorkers)
    let entities ← active.mapM fun e ↦ detached (artifacts g e)
    let document ← projectDocument active options
    checkpoint checkpointLogger "artifacts_generated" (projectSummary entities skipped)
    return { dialect := g.profile.dialect, entities, skipped, document }

/-- The artifacts of a project. -/
def buildProject (settings : Sql.Settings) (dialect : Option Value) (options : Api.DocumentOptions)
    (workers : Option Int) (store : Store) (sources : List Source) : Recorded Project := do
  let g ← ofResult (Sql.Generator.resolve settings dialect none)
  let es ← defineAll store sources
  projectOfEntities g options workers es

end EntityCompiler.Recorded
