import EntityCompiler.Value.Basic

/-!
# Entities

The checked definition of an entity that every artifact is made from.  Columns are kept in their
order.  Which columns must be present and which may be null is decided here, once for all artifacts.
-/

namespace EntityCompiler

/-- Who may see a column. -/
inductive Visibility where
  /-- Part of the API. -/
  | isPublic
  /-- Known to the backend only. -/
  | isInternal
  /-- Known to the backend only, and masked wherever a record is shown. -/
  | isSecret
deriving DecidableEq, Repr

namespace Visibility

def all : List Visibility := [.isPublic, .isInternal, .isSecret]

def name : Visibility → String
  | .isPublic => "public"
  | .isInternal => "internal"
  | .isSecret => "secret"

end Visibility

/-- How much test scaffolding an entity gets. -/
inductive TestMode where
  | smoke
  | full
deriving DecidableEq, Repr

namespace TestMode

def all : List TestMode := [.smoke, .full]

def name : TestMode → String
  | .smoke => "smoke"
  | .full => "full"

end TestMode

/-- What a column means to the database. -/
structure StorageFlags where
  primary : Bool := false
  unique : Bool := false
  index : Bool := false
  /-- Filled with the current time. -/
  defaultNow : Bool := false
deriving DecidableEq, Repr

/-- A column of an entity. -/
structure Column where
  type : ColumnType
  optional : Bool := false
  nullable : Bool := false
  default : Option Json := none
  description : Option String := none
  visibility : Visibility := .isPublic
  immutable : Bool := false
  stored : Bool := true
  /-- A value shown as an example. -/
  sample : Option Json := none
  db : StorageFlags := {}

namespace Column

/-- Whether a record must have the column. -/
def required (c : Column) : Bool := !c.optional

/-- Whether the column may be null, in the database and in a record. -/
def acceptsNull (c : Column) : Bool := c.nullable || c.optional

def isPublic (c : Column) : Bool := c.visibility = .isPublic

end Column

/-- How an entity appears in API documents. -/
structure ApiSettings where
  enabled : Bool := true
  tags : List String := []
  summary : Option String := none
  description : Option String := none
deriving DecidableEq, Repr

/-- The documentation of an entity. -/
structure DocsSettings where
  description : Option String := none
  examples : List (String × Value) := []

/-- What is known of an entity apart from its columns. -/
structure Metadata where
  doc : Bool := false
  test : Option TestMode := none
  active : Bool := true
  openapi : ApiSettings := {}
  docs : DocsSettings := {}

/-- A checked entity. -/
structure Entity where
  name : String
  table : Bool
  columns : List (String × Column)
  metadata : Metadata
  fingerprint : String

namespace Entity

def columnNames (e : Entity) : List String :=
  e.columns.map (·.1)

def requiredColumns (e : Entity) : List String :=
  (e.columns.filter fun column ↦ column.2.required).map (·.1)

/-- The columns kept in the database. -/
def storedColumns (e : Entity) : List (String × Column) :=
  e.columns.filter fun column ↦ column.2.stored

/-- The columns shown in the API. -/
def publicColumns (e : Entity) : List (String × Column) :=
  e.columns.filter fun column ↦ column.2.isPublic

/-- Whether the entity is part of API documents. -/
def isDocumented (e : Entity) : Bool :=
  e.metadata.active && e.metadata.openapi.enabled

/-- The secret columns. -/
def secretNames (e : Entity) : List String :=
  (e.columns.filter fun column ↦ column.2.visibility = .isSecret).map (·.1)

/-- A record with the values of secret columns hidden. -/
def mask (e : Entity) (record : List (Value × Value)) : List (Value × Value) :=
  record.map fun (key, value) ↦
    match key.text? with
    | some name => (key, if e.secretNames.contains name then .text "***" else value)
    | none => (key, value)

end Entity

end EntityCompiler
