import EntityCompiler.Journal.Basic
import EntityCompiler.Store

/-!
# Recorded builds

Builds of entities that leave a record of every column that has passed its check, of every finished
definition, and of what happens in a store.
-/

namespace EntityCompiler.Recorded

open Journal

/-- The part of a fingerprint that records show. -/
def shortFingerprint (fingerprint : String) : String :=
  String.ofList (fingerprint.toList.take 12)

/-! ## Entities -/

/-- The column that a specification describes. -/
def buildColumn (entity name : String) (spec : ColumnSpecification) : Recorded Column :=
  within (.ofFields [(.column, name)]) do
    let column ← ofBuild (spec.build entity name)
    log .builder Level.debug ("Checked column " ++ name ++ ": " ++ column.type.describe)
    return column

/-- The columns of an entity, in order. -/
def buildColumns (entity : String) :
    List (String × ColumnSpecification) → Recorded (List (String × Column))
  | [] => pure []
  | (name, spec) :: rest => do
    let column ← buildColumn entity name spec
    let columns ← buildColumns entity rest
    return (name, column) :: columns

/-- The entity that a specification of the right shape describes. -/
def prepare (spec : Specification) : Recorded Entity := do
  ofBuild (Specification.checkName (.text spec.name))
  if spec.columns.isEmpty then
    ofBuild (.error (.noColumns spec.name))
  let columns ←
    within (.ofFields [(.entity, spec.name), (.operation, "build")])
      (buildColumns spec.name spec.columns)
  ofBuild (spec.checkCanonical columns)
  return spec.freeze columns

/-- The record of a finished definition. -/
def builtMessage (e : Entity) : String :=
  "Built entity " ++ e.name ++ " (" ++ Numeral.ofNat e.columns.length ++ " columns, table=" ++
    Value.boolText e.table ++ ", fingerprint=" ++ shortFingerprint e.fingerprint ++ ")"

/-- The entity that a specification of the right shape describes, with a record of its
definition. -/
def buildSpecification (spec : Specification) : Recorded Entity := do
  let e ← prepare spec
  log .builder Level.debug (builtMessage e)
  return e

/-- The entity that a value describes. -/
def buildEntity (v : Value) : Recorded Entity := do
  let spec ← ofBuild (Specification.read v)
  buildSpecification spec

/-! ## Stores -/

/-- The record of what happened to a definition in a store. -/
def logOutcome (stored : Stored) : Store.Outcome → Recorded Unit
  | .unstored => pure ()
  | .hit =>
    log .builder Level.debug
      ("Cache hit for entity " ++ stored.entity.name ++ " (" ++
        shortFingerprint stored.entity.fingerprint ++ ")")
  | .miss evicted =>
    evicted.forM fun old ↦
      log .builder Level.debug
        ("Evicted cached entity " ++ shortFingerprint old.entity.fingerprint)

/-- The definition that a store gives for a specification, and the store afterwards. -/
def storeSpecification (store : Store) (spec : Specification) : Recorded (Stored × Store) := do
  let e ← prepare spec
  let (stored, outcome, after) := store.add e
  logOutcome stored outcome
  return (stored, after)

/-- The definition that a store gives for what a value describes, and the store afterwards. -/
def storeEntity (store : Store) (v : Value) : Recorded (Stored × Store) := do
  let spec ← ofBuild (Specification.read v)
  storeSpecification store spec

/-- The record of the counters of a store. -/
def logCounters (store : Store) : Recorded Unit :=
  log .builder Level.info
    ("Entity cache: " ++ (Value.ofFields [("hits", .int store.hits), ("misses", .int store.misses),
      ("size", .int store.entries.length), ("max_size", .int store.capacity)]).display)

end EntityCompiler.Recorded
