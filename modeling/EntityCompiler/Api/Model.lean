import EntityCompiler.Json.Basic

/-!
# Models of API objects

API objects are put together from models, which have a null for every field that is not set, and then
dumped.  The dump leaves out the fields of models that are null.  It does not look into plain values.
-/

namespace EntityCompiler.Api

/-- A part of an API object: a plain value, a model with its fields, a dictionary or a list of parts. -/
inductive Model where
  | plain (value : Json)
  | fields (members : List (String × Model))
  | entries (members : List (String × Model))
  | items (parts : List Model)
deriving Inhabited

namespace Model

def text (s : String) : Model :=
  .plain (.text s)

def text? (s : Option String) : Model :=
  .plain (Json.ofText? s)

/-- A truth value that is set only if it is true. -/
def flag (b : Bool) : Model :=
  .plain (if b then .bool true else .null)

/-- Whether a part is null. -/
def isNull : Model → Bool
  | .plain .null => true
  | _ => false

mutual

/-- The JSON value that a part is dumped as. -/
def dump : Model → Json
  | .plain value => value
  | .fields members => .object (dumpFields members)
  | .entries members => .object (dumpEntries members)
  | .items parts => .array (dumpItems parts)

/-- The fields of a model that are not null. -/
def dumpFields : List (String × Model) → List (String × Json)
  | [] => []
  | (key, part) :: rest =>
    if part.isNull then dumpFields rest else (key, part.dump) :: dumpFields rest

def dumpEntries : List (String × Model) → List (String × Json)
  | [] => []
  | (key, part) :: rest => (key, part.dump) :: dumpEntries rest

def dumpItems : List Model → List Json
  | [] => []
  | part :: rest => part.dump :: dumpItems rest

end

end Model

end EntityCompiler.Api
