import EntityCompiler.Api.Document
import EntityCompiler.Sql.Generator
import EntityCompiler.Store
import EntityCompiler.Validation.Schema

/-!
# Artifacts of entities and projects

Everything that is generated for one entity, and for all entities of a project.  A project either
yields all of its artifacts or fails with one error.
-/

namespace EntityCompiler

/-- What is generated for an entity. -/
structure Artifacts where
  entity : Entity
  /-- The DDL text of an entity with a table. -/
  ddl : Option String
  full : Validation.Schema
  shown : Validation.Schema
  create : Validation.Schema
  update : Validation.Schema
  component : Json

namespace Artifacts

def name (a : Artifacts) : String := a.entity.name

/-- The DDL text of an entity, if it has a table. -/
def ddlOf (g : Sql.Generator) (e : Entity) : Except Failure (Option String) :=
  if e.table then (g.render e).map some else .ok none

/-- The artifacts of an entity. -/
def ofEntity (g : Sql.Generator) (e : Entity) : Except Failure Artifacts := do
  let ddl ← ddlOf g e
  let component ← (Api.component e).mapError .entity
  return {
    entity := e
    ddl
    full := .full e
    shown := .shown e
    create := .create e
    update := .update e
    component }

end Artifacts

/-- What an artifact is made from: a definition, or a description that has still to be built. -/
inductive Source where
  | definition (e : Entity)
  | description (v : Value)

namespace Source

/-- The definition of a source and the store afterwards. -/
def define (store : Store) : Source → Except EntityError Entity × Store
  | .definition e => (.ok e, store)
  | .description v =>
    let (result, after) := store.build v
    (result.map (·.entity), after)

/-- The definitions of several sources, up to the first that has none. -/
def defineAll (store : Store) : List Source → Except EntityError (List Entity) × Store
  | [] => (.ok [], store)
  | source :: rest =>
    match source.define store with
    | (.error e, after) => (.error e, after)
    | (.ok entity, after) =>
      match defineAll after rest with
      | (.error e, last) => (.error e, last)
      | (.ok entities, last) => (.ok (entity :: entities), last)

end Source

/-- The artifacts of one source. -/
def buildArtifacts (settings : Sql.Settings) (dialect : Option Value) (store : Store)
    (source : Source) : Except Failure Artifacts := do
  let g ← Sql.Generator.resolve settings dialect none
  let e ← (source.define store).1.mapError .entity
  Artifacts.ofEntity g e

/-- What is generated for a project. -/
structure Project where
  dialect : Sql.Dialect
  /-- The artifacts of the active entities, in order. -/
  entities : List Artifacts
  /-- The names of the inactive entities, in order. -/
  skipped : List String
  document : Json

namespace Project

/-- The artifacts of an entity by its name. -/
def get (p : Project) (name : String) : Except Failure Artifacts :=
  match p.entities.find? fun a ↦ a.name = name with
  | some a => .ok a
  | none => .error (.unknownName (.text name))

/-- The DDL texts of all entities with a table, separated by blank lines. -/
def script (p : Project) : String :=
  "\n\n".intercalate (p.entities.filterMap (·.ddl))

/-- The entities that get artifacts. -/
def active (es : List Entity) : List Entity :=
  es.filter (·.metadata.active)

/-- The names of the entities that get none. -/
def skippedNames (es : List Entity) : List String :=
  (es.filter fun e ↦ !e.metadata.active).map (·.name)

/-- The artifacts of definitions.  A pool has to have a worker if there is anything to do. -/
def ofEntities (g : Sql.Generator) (options : Api.DocumentOptions) (workers : Option Int)
    (es : List Entity) : Except Failure Project := do
  if !(active es).isEmpty && workers.any (· ≤ 0) then
    .error .noWorkers
  let entities ← (active es).mapM (Artifacts.ofEntity g)
  let document ← (Api.projectDocument (active es) options).mapError .entity
  return {
    dialect := g.profile.dialect
    entities
    skipped := skippedNames es
    document }

/-- The artifacts of a project.  The settings are resolved before any source is looked at, and all
sources are built before anything is generated. -/
def build (settings : Sql.Settings) (dialect : Option Value) (options : Api.DocumentOptions)
    (workers : Option Int) (store : Store) (sources : List Source) : Except Failure Project := do
  let g ← Sql.Generator.resolve settings dialect none
  let es ← (Source.defineAll store sources).1.mapError .entity
  ofEntities g options workers es

end Project

end EntityCompiler
