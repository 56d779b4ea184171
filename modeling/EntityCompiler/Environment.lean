import EntityCompiler.Api.Document
import EntityCompiler.Sql.Generator
import EntityCompiler.Store

/-!
# Settings from the environment

The settings that environment variables give, with the values that hold when a variable is not set.
-/

namespace EntityCompiler

/-- The variables of an environment. -/
structure Environment where
  bindings : List (String × String) := []

namespace Environment

variable (env : Environment)

def get? (name : String) : Option String :=
  (env.bindings.find? (·.1 = name)).map (·.2)

def text (name absent : String) : String :=
  (env.get? name).getD absent

/-- The words that switch a flag on, in any case and with blanks around them.  All others switch it
off. -/
def flag (name : String) (absent : Bool) : Bool :=
  match env.get? name with
  | some word => ["1", "true", "yes", "on"].contains (Text.lower (Text.trim word))
  | none => absent

/-- The settings of DDL texts. -/
def ddlSettings : Sql.Settings where
  dialect := .text (env.text "ENTITYFORGE_DIALECT" "postgres")
  ifNotExists := env.flag "ENTITYFORGE_IF_NOT_EXISTS" true
  tableNaming := .text (env.text "ENTITYFORGE_TABLE_NAMING" "entity")
  jsonArrayFallback := env.flag "ENTITYFORGE_JSON_ARRAY_FALLBACK" true
  schemaName := (env.get? "ENTITYFORGE_SCHEMA").filter (· ≠ "")
  includeComments := env.flag "ENTITYFORGE_INCLUDE_COMMENTS" false

/-- The settings of API documents. -/
structure DocumentSettings where
  openapiVersion : String
  title : String
  version : String
deriving DecidableEq, Repr

def documentSettings : DocumentSettings where
  openapiVersion := env.text "ENTITYFORGE_OPENAPI_VERSION" "3.1.0"
  title := env.text "ENTITYFORGE_API_TITLE" "Entity API"
  version := env.text "ENTITYFORGE_API_VERSION" "0.1.0"

/-- The document options for given settings.  Title and version must not be empty. -/
def DocumentSettings.options (s : DocumentSettings) : Checked Api.DocumentOptions :=
  Api.DocumentOptions.ofEntries [(.text "title", .text s.title), (.text "version", .text s.version),
    (.text "openapi_version", .text s.openapiVersion)]

/-- How many definitions a store keeps, as it is given. -/
def cacheSize : Except Numeral.Fault Int :=
  match env.get? "ENTITYFORGE_CACHE_SIZE" with
  | some text => Numeral.readInt text
  | none => .ok 128

/-- The empty store of the size that the environment gives. -/
def store : Except Numeral.Fault Store :=
  env.cacheSize.map Store.ofCapacity

end Environment

end EntityCompiler
