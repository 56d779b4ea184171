import EntityCompiler.Journal.Context

/-!
# Journals

A journal collects the records that a run leaves behind, together with the contexts that are open.
Contexts are opened for the duration of a block and closed at its end, whether the block succeeds
or fails.
-/

namespace EntityCompiler

namespace Journal

/-! ## Levels and components -/

namespace Level

def debug : Int := 10

def info : Int := 20

/-- The name of a level; levels between the named ones are shown by their number. -/
def name (level : Int) : String :=
  if level = 0 then "NOTSET"
  else if level = 10 then "DEBUG"
  else if level = 20 then "INFO"
  else if level = 30 then "WARNING"
  else if level = 40 then "ERROR"
  else if level = 50 then "CRITICAL"
  else "Level " ++ Numeral.ofInt level

end Level

/-- The parts of a run that leave records. -/
inductive Component where
  | builder
  | ddl
  | validation
  | openapi
  | pipeline
deriving DecidableEq, Repr

namespace Component

def all : List Component := [.builder, .ddl, .validation, .openapi, .pipeline]

def name : Component → String
  | .builder => "builder"
  | .ddl => "ddl"
  | .validation => "validation"
  | .openapi => "openapi"
  | .pipeline => "pipeline"

/-- The name under which the records of a component are left. -/
def logger : Component → String
  | .builder => "entityforge.services.entity_builder"
  | .ddl => "entityforge.schema.sql_generator"
  | .validation => "entityforge.schema.validation"
  | .openapi => "entityforge.schema.openapi"
  | .pipeline => "entityforge.services.artifacts"

/-- The component with a given name. -/
def ofName? (name : String) : Option Component :=
  all.find? fun c ↦ c.name = name

/-- The component that a value names.  A value that does not count as true names none. -/
def ofValue (v : Value) : Except Failure (Option Component) :=
  if v.isTrue then
    match v with
    | .text name => ((ofName? name).map (.ok ∘ some)).getD (.error (.unknownComponent v))
    | _ => .error (.unknownComponent v)
  else .ok none

end Component

/-! ## Records -/

/-- One entry of a journal. -/
structure Record where
  logger : String
  level : Int
  message : String
  data : List (Value × Value)

/-- The data with an entry that is added unless its key is there already. -/
def addAbsent (key : String) (value : Value) (data : List (Value × Value)) :
    List (Value × Value) :=
  match Value.lookup? key data with
  | some _ => data
  | none => data ++ [(.text key, value)]

/-- The data of a record: the entries given with it, those of the context over them, and the
component unless one of them names it. -/
def enrich (context : Context) (component : Option Component) (data : List (Value × Value)) :
    List (Value × Value) :=
  let data := Value.putEntries context.entries data
  match component with
  | some component => addAbsent "component" (.text component.name) data
  | none => data

end Journal

/-- The open contexts, the innermost first, and the records so far. -/
structure Journal where
  contexts : List Journal.Context := []
  records : List Journal.Record := []

namespace Journal

/-- The innermost open context. -/
def context (j : Journal) : Context :=
  j.contexts.headD {}

/-- The journal with one more context, narrowed from the innermost one. -/
def enter (j : Journal) (change : Change) : Journal :=
  { j with contexts := j.context.narrow change :: j.contexts }

/-- The journal with the innermost context closed. -/
def leave (j : Journal) : Journal :=
  { j with contexts := j.contexts.tail }

/-- The journal with one more record. -/
def add (j : Journal) (record : Record) : Journal :=
  { j with records := j.records ++ [record] }

/-- The record that a component leaves in the innermost context. -/
def componentRecord (j : Journal) (component : Component) (level : Int) (message : String) :
    Record where
  logger := component.logger
  level := level
  message := message
  data := enrich j.context (some component) []

/-- The record of a checkpoint in the innermost context. -/
def checkpointRecord (j : Journal) (logger name : String) (data : List (Value × Value)) :
    Record where
  logger := logger
  level := Level.info
  message := "CHECKPOINT: " ++ name
  data :=
    (.text "checkpoint", .text name) ::
      (j.context.location.map fun (name, value) ↦ (.text name, value)) ++
      if data.isEmpty then [] else [(.text "data", .dict data)]

/-- The name under which checkpoints are left unless another one is given. -/
def checkpointLogger : String := "entityforge.checkpoint"

end Journal

/-- A run that may fail and that leaves records either way. -/
abbrev Recorded (α : Type) := ExceptT Failure (StateM Journal) α

namespace Recorded

variable {α : Type}

/-- The run that has a given outcome and leaves no record. -/
def ofResult (result : Except Failure α) : Recorded α :=
  ExceptT.mk fun j ↦ (result, j)

/-- The run that has the outcome of a build and leaves no record. -/
def ofBuild (result : Except EntityError α) : Recorded α :=
  ofResult (result.mapError .entity)

/-- Runs a block in a narrowed context, which is closed however the block ends. -/
def within (change : Journal.Change) (body : Recorded α) : Recorded α :=
  ExceptT.mk fun j ↦
    let (result, after) := body.run.run (j.enter change)
    (result, after.leave)

/-- Runs a block in the context that named arguments give.  A name that is not known opens
nothing. -/
def withinEntries (entries : List (Value × Value)) (body : Recorded α) : Recorded α := do
  let change ← ofResult (Journal.Change.ofEntries entries)
  within change body

/-- Runs a block that does not see the open contexts. -/
def detached (body : Recorded α) : Recorded α :=
  ExceptT.mk fun j ↦
    let (result, after) := body.run.run { j with contexts := [] }
    (result, { after with contexts := j.contexts })

/-- Leaves a record of a component. -/
def log (component : Journal.Component) (level : Int) (message : String) : Recorded Unit :=
  ExceptT.mk fun j ↦ (.ok (), j.add (j.componentRecord component level message))

/-- Leaves the record of a checkpoint. -/
def checkpoint (logger name : String) (data : List (Value × Value)) : Recorded Unit :=
  ExceptT.mk fun j ↦ (.ok (), j.add (j.checkpointRecord logger name data))

/-- The outcome of a block as a value; the records of a failing block stay. -/
def outcome (body : Recorded α) : Recorded (Except Failure α) :=
  ExceptT.mk fun j ↦
    let (result, after) := body.run.run j
    (.ok result, after)

end Recorded

end EntityCompiler
