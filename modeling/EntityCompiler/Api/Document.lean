import EntityCompiler.Api.Component
import EntityCompiler.Shape

/-!
# API documents

A document that holds the components of one or several entities.  Without one of its components
there is no document.
-/

namespace EntityCompiler.Api

/-- The settings of a document. -/
structure DocumentOptions where
  title : String := "Entity API"
  version : String := "0.1.0"
  description : Option String := none
  openapiVersion : String := "3.1.0"
deriving DecidableEq, Repr

/-- The settings given as named arguments. -/
def DocumentOptions.ofEntries (entries : List (Value × Value)) : Checked DocumentOptions :=
  DocumentOptions.mk
    <$> Shape.required "title" Shape.nonempty entries
    <*> Shape.required "version" Shape.nonempty entries
    <*> Shape.optional none "description" (Shape.orNull Shape.text) entries
    <*> Shape.optional "3.1.0" "openapi_version" Shape.text entries
    <* Shape.noOthers ["title", "version", "description", "openapi_version"] entries

/-- The document with given components and tags. -/
def document (schemas : List (String × Model)) (options : DocumentOptions) (tags : List String) :
    Json :=
  let info : Model := .fields [("title", .text options.title), ("version", .text options.version),
    ("description", .text? (nonempty? options.description))]
  let tagModels : Model :=
    if tags.isEmpty then .plain .null
    else .items (tags.map fun tag ↦ .fields [("name", .text tag)])
  Model.dump (.fields [("openapi", .text options.openapiVersion), ("info", info),
    ("paths", .entries []), ("components", .fields [("schemas", .entries schemas)]),
    ("tags", tagModels)])

/-- The models of several entities by name, up to the first entity that has none. -/
def components (es : List Entity) : Except EntityError (List (String × Model)) :=
  es.mapM fun e ↦ (checkedModel e).map fun schema ↦ (e.name, schema)

/-- The document of one entity. -/
def entityDocument (e : Entity) (options : DocumentOptions) : Except EntityError Json :=
  (components [e]).map fun schemas ↦ document schemas options e.metadata.openapi.tags

/-- The entities with one more, which takes the place of one with the same name. -/
def putEntity (e : Entity) : List Entity → List Entity
  | [] => [e]
  | first :: rest => if first.name = e.name then e :: rest else first :: putEntity e rest

/-- The entities that have a component in a common document.  Of several documented entities with
one name, the last one counts. -/
def documented (es : List Entity) : List Entity :=
  (es.filter (·.isDocumented)).foldl (fun shown e ↦ putEntity e shown) []

/-- The tags of the documented entities, each at its first place. -/
def documentTags (es : List Entity) : List String :=
  ((es.filter (·.isDocumented)).flatMap (·.metadata.openapi.tags)).foldl
    (fun tags tag ↦ if tags.contains tag then tags else tags ++ [tag]) []

/-- The document of several entities.  Only documented ones are part of it. -/
def projectDocument (es : List Entity) (options : DocumentOptions) : Except EntityError Json :=
  (components (documented es)).map fun schemas ↦ document schemas options (documentTags es)

end EntityCompiler.Api
