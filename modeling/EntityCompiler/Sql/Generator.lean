import EntityCompiler.Entity.Basic
import EntityCompiler.Sql.Default
import EntityCompiler.Sql.Statement

/-!
# DDL of entities

The statements that create the table of an entity, its indexes and its comments.  Columns come in
their order, and only stored ones; the text is a function of the entity and the settings.
-/

namespace EntityCompiler.Sql

/-- How an entity name becomes a table name. -/
inductive TableNaming where
  | entity
  | snakeCase
deriving DecidableEq, Repr

namespace TableNaming

/-- The naming rule with a given name. -/
def resolve : Value → Except Failure TableNaming
  | .text "entity" => .ok .entity
  | .text "snake_case" => .ok .snakeCase
  | v => .error (.unknownTableNaming v)

/-- The table of an entity. -/
def tableName : TableNaming → String → String
  | .entity, name => name
  | .snakeCase, name => Text.snakeCase name

end TableNaming

/-- The settings of DDL texts as they are given. -/
structure Settings where
  dialect : Value := .text "postgres"
  ifNotExists : Bool := true
  tableNaming : Value := .text "entity"
  /-- Keeps arrays as JSON where the dialect has none. -/
  jsonArrayFallback : Bool := true
  schemaName : Option String := none
  includeComments : Bool := false
  indent : String := "  "

namespace Settings

/-- The settings with one of them replaced by a named argument. -/
def put (settings : Settings) : Value × Value → Except Failure Settings
  | (.text "dialect", v) => .ok { settings with dialect := v }
  | (.text "if_not_exists", v) => .ok { settings with ifNotExists := v.isTrue }
  | (.text "table_naming", v) => .ok { settings with tableNaming := v }
  | (.text "json_array_fallback", v) => .ok { settings with jsonArrayFallback := v.isTrue }
  | (.text "schema_name", .text s) => .ok { settings with schemaName := some s }
  | (.text "schema_name", .null) => .ok { settings with schemaName := none }
  | (.text "include_comments", v) => .ok { settings with includeComments := v.isTrue }
  | (.text "indent", v) => .ok { settings with indent := v.inlineText }
  | _ => .error .unknownField

/-- The settings given by named arguments. -/
def ofEntries (entries : List (Value × Value)) : Except Failure Settings :=
  entries.foldlM put {}

end Settings

/-- Settings that have been resolved. -/
structure Generator where
  profile : Profile
  naming : TableNaming
  schemaName : Option String
  ifNotExists : Bool
  jsonArrayFallback : Bool
  includeComments : Bool
  indent : String

namespace Generator

/-- The generator for given settings.  A dialect or schema given on its own wins over the
settings. -/
def resolve (settings : Settings) (dialect : Option Value) (schemaName : Option String) :
    Except Failure Generator := do
  let dialect ← (Dialect.resolve (dialect.getD settings.dialect)).mapError .entity
  let naming ← TableNaming.resolve settings.tableNaming
  return {
    profile := Profile.of dialect
    naming
    schemaName := schemaName.or settings.schemaName
    ifNotExists := settings.ifNotExists
    jsonArrayFallback := settings.jsonArrayFallback
    includeComments := settings.includeComments
    indent := settings.indent }

variable (g : Generator)

/-- The table of an entity. -/
def tableName (e : Entity) : String :=
  g.naming.tableName e.name

/-! ## Columns -/

/-- The default clause of a column. -/
def defaultClause (entity name : String) (c : Column) : Except Failure (List String) :=
  if c.db.defaultNow ∧ c.type = .primitive .date then
    .ok ["DEFAULT " ++ g.profile.currentTimestamp]
  else
    match c.default with
    | some value =>
      (renderDefault g.profile ⟨some entity, name⟩ c.type value).map fun literal ↦
        ["DEFAULT " ++ literal]
    | none => .ok []

/-- The comment clause of a column. -/
def commentClause (c : Column) : List String :=
  match c.description with
  | some text => if g.includeComments then (Comment.clause? g.profile text).toList else []
  | none => []

/-- The definition of a column. -/
def columnDefinition (entity name : String) (c : Column) : Except Failure String := do
  let type ← (renderType g.profile g.jsonArrayFallback ⟨some entity, name⟩ c.type).mapError .entity
  let default ← g.defaultClause entity name c
  let null := if c.acceptsNull then [] else ["NOT NULL"]
  let unique := if c.db.unique && !c.db.primary then ["UNIQUE"] else []
  return " ".intercalate
    ([g.profile.identifier name, type] ++ null ++ default ++ unique ++ g.commentClause c)

/-! ## Statements -/

/-- The definitions of several columns. -/
def columnDefinitions (entity : String) (columns : List (String × Column)) :
    Except Failure (List String) :=
  columns.mapM fun (name, c) ↦ g.columnDefinition entity name c

/-- The names of the primary columns. -/
def primaryNames (columns : List (String × Column)) : List String :=
  (columns.filter fun column ↦ column.2.db.primary).map (·.1)

/-- The primary-key clause, if there are primary columns. -/
def primaryKeyClause (columns : List (String × Column)) : List String :=
  match primaryNames columns with
  | [] => []
  | names => ["PRIMARY KEY (" ++ g.profile.identifiers names ++ ")"]

/-- The statement that creates the table of an entity, if it has one and any column is stored. -/
def tableStatement? (e : Entity) : Except Failure (Option String) := do
  if !e.table || e.storedColumns.isEmpty then return none
  let definitions ← g.columnDefinitions e.name e.storedColumns
  let lines := (definitions ++ g.primaryKeyClause e.storedColumns).map (g.indent ++ ·)
  return some ((if g.ifNotExists then "CREATE TABLE IF NOT EXISTS " else "CREATE TABLE ") ++
    g.profile.tableReference (g.tableName e) g.schemaName ++ " (\n" ++ ",\n".intercalate lines ++
    "\n);")

/-- The statements that create the indexes of an entity. -/
def indexStatements (e : Entity) : List String :=
  if e.table then
    (e.storedColumns.filter fun column ↦ column.2.db.index && !column.2.db.primary).map
      fun (name, _) ↦ Index.statement g.profile (g.tableName e) [name] none g.schemaName false
  else []

/-- The statements that comment on the columns of an entity. -/
def commentStatements (e : Entity) : List String :=
  if e.table && g.includeComments then
    e.storedColumns.filterMap fun (name, c) ↦
      c.description.bind fun text ↦
        Comment.statement? g.profile (g.tableName e) name text g.schemaName
  else []

/-- All statements for an entity, in the order in which they are to be executed. -/
def statements (e : Entity) : Except Failure (List String) := do
  match ← g.tableStatement? e with
  | some table => return table :: (g.indexStatements e ++ g.commentStatements e)
  | none => return []

/-- The DDL text of an entity.  An entity without a table gets a remark. -/
def render (e : Entity) : Except Failure String := do
  if !e.table then return "-- Entity " ++ e.name ++ " is not mapped to a table."
  match ← g.statements e with
  | [] => return "-- Entity " ++ e.name ++ " has no stored columns."
  | statements => return "\n".intercalate statements

/-- The statement that creates the schema, if one is named. -/
def schemaStatements : List String :=
  match g.schemaName with
  | some schema => if schema = "" then [] else (createSchema? g.profile schema).toList
  | none => []

/-- The statements for several entities. -/
def renderAll (es : List Entity) : Except Failure (List String) := do
  let statements ← es.mapM g.statements
  return g.schemaStatements ++ statements.flatten

end Generator

/-- The DDL text of an entity. -/
def toDdl (settings : Settings) (dialect : Option Value) (e : Entity) : Except Failure String := do
  let g ← Generator.resolve settings dialect none
  g.render e

end EntityCompiler.Sql
