import EntityCompiler.Column.Literal
import EntityCompiler.Entity.Canonical
import EntityCompiler.Error
import EntityCompiler.Specification.Read
import EntityCompiler.Text.SnakeCase
import EntityCompiler.Value.Dump

/-!
# Building entities

An entity is built from a specification or not at all.  The name is checked first, then the shape,
then the columns one after the other and last whether the fingerprint can be taken; the first check that
fails decides the error.
-/

namespace EntityCompiler

namespace Naming

def entityPattern : String := "^[A-Z][A-Za-z0-9]*$"

def columnPattern : String := "^[A-Za-z][A-Za-z0-9_]*$"

def isLetter (c : Char) : Bool :=
  Text.isAsciiUpper c || Text.isAsciiLower c

/-- Whether a name is a capital letter followed by letters and digits. -/
def isPascalCase (name : String) : Bool :=
  match name.toList with
  | [] => false
  | c :: rest => Text.isAsciiUpper c && rest.all fun c ↦ isLetter c || Text.isAsciiDigit c

/-- Whether a name is a letter followed by letters, digits and underscores. -/
def isColumnName (name : String) : Bool :=
  match name.toList with
  | [] => false
  | c :: rest => isLetter c && rest.all fun c ↦ isLetter c || Text.isAsciiDigit c || c = '_'

end Naming

namespace EntityError

/-- The error of an entity name that is not in Pascal case. -/
def entityName (name : Value) : EntityError :=
  .invalidName "entity" name Naming.entityPattern none

/-- The error of a column name that does not match the pattern. -/
def columnName (entity name : String) : EntityError :=
  .invalidName "column" (.text name) Naming.columnPattern (some entity)

end EntityError

namespace ColumnSpecification

/-- What is kept of a default or example. -/
def buildLiteral (entity name role : String) (type : ColumnType) (acceptsNull : Bool) (v : Value) :
    Except EntityError Json :=
  let refuse (reason : String) : EntityError :=
    .showing v (.invalidLiteral role name type.describe v reason (some entity))
  match v with
  | .null => if acceptsNull then .ok .null else .error (refuse "column does not accept null")
  | v => (Literal.read type v).mapError fun reason ↦ refuse reason.message

/-- What is kept of a default or example that may be absent. -/
def buildLiteral? (entity name role : String) (type : ColumnType) (acceptsNull : Bool) :
    Option Value → Except EntityError (Option Json)
  | none => .ok none
  | some v => (buildLiteral entity name role type acceptsNull v).map some

/-- Checks what the flags of a column ask of its type, default and null. -/
def checkFlags (entity name : String) (spec : ColumnSpecification) (type : ColumnType)
    (default : Option Json) : Except EntityError Unit := do
  if spec.db.defaultNow then
    if type ≠ .primitive .date then
      .error (.defaultNowType entity name type.describe)
    if default.isSome then
      .error (.defaultNowAndDefault entity name)
  if spec.db.primary && spec.acceptsNull then
    .error (.nullablePrimaryKey entity name)

/-- The column that a specification describes. -/
def build (entity name : String) (spec : ColumnSpecification) : Except EntityError Column := do
  if !Naming.isColumnName name then
    .error (.columnName entity name)
  let type ← (ColumnType.parse spec.type).mapError fun _ ↦
    EntityError.showing spec.type (.invalidColumnType name spec.type (some entity))
  let default ← buildLiteral? entity name "default" type spec.acceptsNull spec.default
  let sample ← buildLiteral? entity name "example" type true spec.sample
  checkFlags entity name spec type default
  return {
    type
    optional := spec.optional
    nullable := spec.nullable
    default
    description := spec.description
    visibility := spec.visibility
    immutable := spec.immutable
    stored := spec.stored
    sample
    db := spec.db }

end ColumnSpecification

namespace Specification

/-- Checks that the name given to an entity is in Pascal case if it is a text. -/
def checkName (given : Value) : Except EntityError Unit :=
  match given.text? with
  | some name => if Naming.isPascalCase name then .ok () else .error (.entityName given)
  | none => .ok ()

/-- The columns of an entity, in order. -/
def buildColumns (entity : String) :
    List (String × ColumnSpecification) → Except EntityError (List (String × Column))
  | [] => .ok []
  | (name, spec) :: rest => do
    let column ← spec.build entity name
    let columns ← buildColumns entity rest
    return (name, column) :: columns

/-- Checks that the examples in the documentation can be part of a fingerprint. -/
def checkExamples (spec : Specification) : Except EntityError Unit :=
  match (spec.docs.getD {}).examples.findSome? fun (_, value) ↦ value.dumpFault? depthLimit with
  | some fault => .error fault
  | none => .ok ()

/-- Checks that the canonical form can be written. -/
def checkCanonical (spec : Specification) (columns : List (String × Column)) :
    Except EntityError Unit := do
  checkExamples spec
  if !(spec.canonical columns).isWritable then
    .error .tooManyDigits

/-- What is known of the entity apart from its columns. -/
def metadata (spec : Specification) : Metadata where
  doc := spec.doc
  test := spec.test
  active := spec.active
  openapi := spec.openapi.getD {}
  docs :=
    match spec.docs with
    | some docs =>
      { docs with examples := docs.examples.map fun (name, value) ↦ (name, value.untupled) }
    | none => {}

/-- The entity with given columns. -/
def freeze (spec : Specification) (columns : List (String × Column)) : Entity where
  name := spec.name
  table := spec.table
  columns := columns
  metadata := spec.metadata
  fingerprint := (spec.canonical columns).fingerprint

/-- The entity that a specification of the right shape describes. -/
def build (spec : Specification) : Except EntityError Entity := do
  checkName (.text spec.name)
  if spec.columns.isEmpty then
    .error (.noColumns spec.name)
  let columns ← buildColumns spec.name spec.columns
  checkCanonical spec columns
  return spec.freeze columns

/-- The specification that a value gives.  A textual name that is not in Pascal case is reported
before anything else. -/
def read : Value → Except EntityError Specification
  | .dict entries => do
    let given := (Value.lookup? "name" entries).getD .null
    checkName given
    match ofValue (.dict entries) with
    | .accepted spec => .ok spec
    | .rejected issues => .error (.shape given.text? issues)
  | v => .error (.notAMapping v.typeName)

/-- The specification that a value gives when it is read on its own. -/
def parse (v : Value) : Except Failure Specification :=
  (ofValue v).toExcept.mapError .issues

end Specification

namespace Entity

/-- The entity that a value describes. -/
def build (v : Value) : Except EntityError Entity := do
  let spec ← Specification.read v
  spec.build

/-- The entity that a value describes whose specification is read on its own first. -/
def buildParsed (v : Value) : Except Failure Entity := do
  let spec ← Specification.parse v
  spec.build.mapError .entity

/-- The fingerprint of the entity that a value describes. -/
def fingerprintOf (v : Value) : Except EntityError String :=
  (build v).map (·.fingerprint)

end Entity

end EntityCompiler
