import EntityCompiler.Number.Binary64

/-!
# JSON values

JSON values whose objects keep the order of their members.  Integers and floating-point numbers are
told apart, and the latter are finite.
-/

namespace EntityCompiler

/-- A JSON value. -/
inductive Json where
  | null
  | bool (b : Bool)
  | int (n : Int)
  | float (x : Finite64)
  | text (s : String)
  | array (items : List Json)
  | object (members : List (String × Json))
deriving Repr, Inhabited

namespace Json

/-- A member of an object that is left out when there is nothing to show. -/
def optionalMember (key : String) : Option Json → List (String × Json)
  | some value => [(key, value)]
  | none => []

/-- A text or `null`. -/
def ofText? : Option String → Json
  | some s => .text s
  | none => .null

def ofTexts (texts : List String) : Json :=
  .array (texts.map .text)

/-- The value of the first member with a given key. -/
def member? (key : String) : Json → Option Json
  | .object members => (members.find? (·.1 = key)).map (·.2)
  | _ => none

/-- The members with a value put under a key: a member with that key keeps its place, a new one goes
to the end. -/
def putMember {α : Type} (key : String) (value : α) : List (String × α) → List (String × α)
  | [] => [(key, value)]
  | (k, v) :: rest => if k = key then (k, value) :: rest else (k, v) :: putMember key value rest

end Json

mutual

/-- Whether a value can be written: no integer in it has too many digits. -/
def Json.isWritable : Json → Bool
  | .int n => Numeral.isWritable n
  | .array items => itemsWritable items
  | .object members => membersWritable members
  | _ => true

def itemsWritable : List Json → Bool
  | [] => true
  | item :: rest => item.isWritable && itemsWritable rest

def membersWritable : List (String × Json) → Bool
  | [] => true
  | (_, value) :: rest => value.isWritable && membersWritable rest

end

mutual

/-- The value with the members of every object in the order of their keys. -/
def Json.sortKeys : Json → Json
  | .array items => .array (sortKeysItems items)
  | .object members =>
    .object ((sortKeysMembers members).mergeSort fun a b ↦ decide (a.1 ≤ b.1))
  | value => value

def sortKeysItems : List Json → List Json
  | [] => []
  | item :: rest => item.sortKeys :: sortKeysItems rest

def sortKeysMembers : List (String × Json) → List (String × Json)
  | [] => []
  | (key, value) :: rest => (key, value.sortKeys) :: sortKeysMembers rest

end

end EntityCompiler
