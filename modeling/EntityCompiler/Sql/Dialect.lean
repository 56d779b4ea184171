import EntityCompiler.Error
import EntityCompiler.Sql.Quote
import EntityCompiler.Text.Lowercase

/-!
# SQL dialects

The supported dialects and what each of them can do.  Everything that differs between dialects is a
field of a profile.
-/

namespace EntityCompiler.Sql

/-- The supported dialects. -/
inductive Dialect where
  | postgres
  | sqlite
  | mysql
deriving DecidableEq, Repr

namespace Dialect

def all : List Dialect := [.postgres, .sqlite, .mysql]

def name : Dialect → String
  | .postgres => "postgres"
  | .sqlite => "sqlite"
  | .mysql => "mysql"

/-- The dialect with a given name. -/
def ofName? (name : String) : Option Dialect :=
  all.find? fun d ↦ d.name = name

/-- The dialect that a value names.  Case and surrounding blanks do not count. -/
def resolve : Value → Except EntityError Dialect
  | .text text =>
    let key := Text.lower (Text.trim text)
    match ofName? key with
    | some d => .ok d
    | none => .error (.unsupportedDialect (.text key) (all.map name))
  | v => .error (.showing v (.unsupportedDialect v (all.map name)))

end Dialect

/-- What a dialect can do and how it spells things. -/
structure Profile where
  dialect : Dialect
  /-- The type of a column of a primitive type. -/
  typeName : Primitive → Option String
  /-- The quote around identifiers. -/
  quote : String := "\x22"
  trueLiteral : String := "TRUE"
  falseLiteral : String := "FALSE"
  /-- The type of a column that holds an array as JSON, if the dialect has no arrays. -/
  jsonArrayType : Option String := none
  nativeArrays : Bool := false
  /-- What follows the literal of a JSON value. -/
  jsonCast : String := ""
  /-- Whether a JSON default has to stand in parentheses. -/
  jsonParentheses : Bool := false
  currentTimestamp : String := "CURRENT_TIMESTAMP"
  indexIfNotExists : Bool := true
  supportsSchemas : Bool := true
  inlineComments : Bool := false
  commentStatements : Bool := false

namespace Profile

def postgres : Profile where
  dialect := .postgres
  typeName
    | .string => some "TEXT"
    | .number => some "DOUBLE PRECISION"
    | .integer => some "INTEGER"
    | .boolean => some "BOOLEAN"
    | .date => some "TIMESTAMPTZ"
    | .json => some "JSONB"
  nativeArrays := true
  jsonCast := "::jsonb"
  commentStatements := true

def sqlite : Profile where
  dialect := .sqlite
  typeName
    | .string => some "TEXT"
    | .number => some "REAL"
    | .integer => some "INTEGER"
    | .boolean => some "INTEGER"
    | .date => some "TEXT"
    | .json => some "TEXT"
  trueLiteral := "1"
  falseLiteral := "0"
  jsonArrayType := some "TEXT"
  supportsSchemas := false

def mysql : Profile where
  dialect := .mysql
  typeName
    | .string => some "VARCHAR(255)"
    | .number => some "DOUBLE"
    | .integer => some "INTEGER"
    | .boolean => some "BOOLEAN"
    | .date => some "DATETIME(3)"
    | .json => some "JSON"
  quote := "\x60"
  jsonArrayType := some "JSON"
  jsonParentheses := true
  currentTimestamp := "CURRENT_TIMESTAMP(3)"
  indexIfNotExists := false
  inlineComments := true

/-- The profile of a dialect. -/
def of : Dialect → Profile
  | .postgres => postgres
  | .sqlite => sqlite
  | .mysql => mysql

/-- The name of the dialect in messages. -/
def name (p : Profile) : String := p.dialect.name

def identifier (p : Profile) (name : String) : String :=
  enclosed p.quote name

/-- The identifiers of several names. -/
def identifiers (p : Profile) (names : List String) : String :=
  ", ".intercalate (names.map p.identifier)

/-- A table, qualified by a schema if one is given and the dialect has schemas. -/
def tableReference (p : Profile) (table : String) : Option String → String
  | some schema =>
    if schema ≠ "" ∧ p.supportsSchemas then p.identifier schema ++ "." ++ p.identifier table
    else p.identifier table
  | none => p.identifier table

end Profile

end EntityCompiler.Sql
