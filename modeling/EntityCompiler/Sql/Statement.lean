import EntityCompiler.Sql.Dialect
import EntityCompiler.Text.SnakeCase

/-!
# Index, comment and schema statements
-/

namespace EntityCompiler.Sql

namespace Index

/-- The name of an index that is given none: the snake-case forms of the table and its columns. -/
def defaultName (table : String) (columns : List String) (unique : Bool) : String :=
  (if unique then "idx_unique" else "idx") ++ "_" ++ Text.snakeCase table ++ "_" ++
    "_".intercalate (columns.map Text.snakeCase)

/-- The statement that creates an index.  An empty name counts as none. -/
def statement (p : Profile) (table : String) (columns : List String)
    (name schema : Option String) (unique : Bool) : String :=
  let name := (name.filter (· ≠ "")).getD (defaultName table columns unique)
  (if unique then "CREATE UNIQUE INDEX" else "CREATE INDEX") ++
    (if p.indexIfNotExists then " IF NOT EXISTS" else "") ++ " " ++ p.identifier name ++ " ON " ++
    p.tableReference table schema ++ " (" ++ p.identifiers columns ++ ");"

end Index

namespace Comment

/-- The comment clause of a column definition, if the dialect has one. -/
def clause? (p : Profile) (comment : String) : Option String :=
  if p.inlineComments then some ("COMMENT " ++ quoteText comment) else none

/-- The statement that comments on a column, if the dialect has one. -/
def statement? (p : Profile) (table column comment : String) (schema : Option String) :
    Option String :=
  if p.commentStatements then
    some ("COMMENT ON COLUMN " ++ p.tableReference table schema ++ "." ++ p.identifier column ++
      " IS " ++ quoteText comment ++ ";")
  else none

end Comment

/-- The statement that creates a schema, if the dialect has schemas. -/
def createSchema? (p : Profile) (schema : String) : Option String :=
  if p.supportsSchemas then some ("CREATE SCHEMA IF NOT EXISTS " ++ p.identifier schema ++ ";")
  else none

end EntityCompiler.Sql
