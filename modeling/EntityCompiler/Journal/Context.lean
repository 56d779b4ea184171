import EntityCompiler.Error

/-!
# Contexts of records

A context says what a run is working on.  It is narrowed step by step: a change overrides the fields
that it sets and puts its extra entries over those already there.
-/

namespace EntityCompiler.Journal

/-- The fields of a context. -/
inductive Field where
  | entity
  | column
  | dialect
  | artifact
  | operation
deriving DecidableEq, Repr

namespace Field

/-- All fields, in the order in which they are shown. -/
def all : List Field := [.entity, .column, .dialect, .artifact, .operation]

/-- The fields that say where in a project a run is. -/
def places : List Field := [.entity, .column, .dialect, .artifact]

def name : Field → String
  | .entity => "entity"
  | .column => "column"
  | .dialect => "dialect"
  | .artifact => "artifact"
  | .operation => "operation"

/-- The field with a given name. -/
def ofName? (name : String) : Option Field :=
  all.find? fun f ↦ f.name = name

end Field

/-- What a run is working on.  A field with the value `null` is not set. -/
structure Context where
  value : Field → Value := fun _ ↦ .null
  extra : List (Value × Value) := []

/-- A change of a context: the fields to set, and entries to add. -/
structure Change where
  value : Field → Option Value := fun _ ↦ none
  extra : List (Value × Value) := []

namespace Change

/-- The change that sets given fields to texts. -/
def ofFields (fields : List (Field × String)) : Change where
  value f := (fields.find? fun pair ↦ pair.1 = f).map fun pair ↦ .text pair.2

/-- The change with one more named argument, which is a field or the dictionary of extra
entries. -/
def put (change : Change) : Value × Value → Except Failure Change
  | (.text "extra", .dict entries) => .ok { change with extra := entries }
  | (.text name, value) =>
    match Field.ofName? name with
    | some field =>
      .ok { change with value := fun f ↦ if f = field then some value else change.value f }
    | none => .error .unknownField
  | _ => .error .unknownField

/-- The change given by named arguments. -/
def ofEntries (entries : List (Value × Value)) : Except Failure Change :=
  entries.foldlM put {}

end Change

namespace Context

/-- The context narrowed by a change. -/
def narrow (context : Context) (change : Change) : Context where
  value f := (change.value f).getD (context.value f)
  extra := Value.putEntries change.extra context.extra

/-- The fields among `fields` that are set, with their values. -/
def settings (context : Context) (fields : List Field) : List (String × Value) :=
  fields.filterMap fun f ↦
    match context.value f with
    | .null => none
    | v => some (f.name, v)

/-- The context as one dictionary.  Extra entries win over fields of the same name. -/
def entries (context : Context) : List (Value × Value) :=
  Value.putEntries context.extra
    ((context.settings Field.all).map fun (name, value) ↦ (.text name, value))

/-- The fields that say where in a project a run is, as far as they are set. -/
def location (context : Context) : List (String × Value) :=
  context.settings Field.places

end Context

end EntityCompiler.Journal
