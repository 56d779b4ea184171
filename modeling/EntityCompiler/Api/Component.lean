import EntityCompiler.Api.Model
import EntityCompiler.Entity.Basic
import EntityCompiler.Error
import EntityCompiler.Value.Depth

/-!
# API components

The schema object that describes an entity in an API document.  It shows the public columns only,
and there is none when one of them is nested too deeply to be dumped.
-/

namespace EntityCompiler.Api

/-- The fields that describe a column type. -/
def typeFields : ColumnType → List (String × Model)
  | .primitive .string => [("type", .text "string")]
  | .primitive .number => [("type", .text "number")]
  | .primitive .integer => [("type", .text "integer")]
  | .primitive .boolean => [("type", .text "boolean")]
  | .primitive .date => [("type", .text "string"), ("format", .text "date-time")]
  | .primitive .json => []
  | .arrayOf element => [("type", .text "array"), ("items", .fields (typeFields element))]

/-- The fields that do not depend on the type.  A null default says nothing that `nullable` does not. -/
def columnFields (c : Column) : List (String × Model) :=
  [("nullable", .flag c.acceptsNull), ("description", .text? c.description),
    ("readOnly", .flag c.immutable), ("default", .plain (c.default.getD .null)),
    ("examples", .plain ((c.sample.map fun value ↦ .array [value]).getD .null))]

/-- The model of a column. -/
def columnModel (c : Column) : Model :=
  .fields (typeFields c.type ++ columnFields c)

/-- The property of a column. -/
def property (c : Column) : Json :=
  (columnModel c).dump

/-- The names of the public columns that have to be present. -/
def requiredNames (e : Entity) : List String :=
  (e.publicColumns.filter fun column ↦ column.2.required).map (·.1)

/-- The text, unless it is empty. -/
def nonempty? (text : Option String) : Option String :=
  text.filter (· ≠ "")

/-- The description of the component: that of the API settings, that of the documentation, or one
made from the name. -/
def componentDescription (e : Entity) : String :=
  ((nonempty? e.metadata.openapi.description).or (nonempty? e.metadata.docs.description)).getD
    (e.name ++ " entity")

/-- The model of an entity. -/
def componentModel (e : Entity) : Model :=
  let required := requiredNames e
  .fields [("type", .text "object"), ("title", .text e.name),
    ("description", .text (componentDescription e)),
    ("properties", .entries (e.publicColumns.map fun (name, c) ↦ (name, columnModel c))),
    ("additionalProperties", .plain (.bool false)),
    ("required", .plain (if required.isEmpty then .null else Json.ofTexts required))]

/-- Whether what a property shows has no more levels than it may have below an object and one of its
properties. -/
def propertyFits (c : Column) : Bool :=
  let fits (depth : Nat) : Bool := depth + 2 ≤ depthLimit
  fits c.type.depth && c.default.all (fun value ↦ fits value.depth) &&
    c.sample.all fun value ↦ fits value.depth

/-- Whether every property of an entity fits into a component. -/
def fits (e : Entity) : Bool :=
  e.publicColumns.all fun column ↦ propertyFits column.2

/-- The model of an entity, unless one of its properties is nested too deeply to be dumped. -/
def checkedModel (e : Entity) : Except EntityError Model :=
  if fits e then .ok (componentModel e) else .error .tooDeep

/-- The component of an entity. -/
def component (e : Entity) : Except EntityError Json :=
  (checkedModel e).map Model.dump

end EntityCompiler.Api
