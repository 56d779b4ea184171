import EntityCompiler.Value.Display

/-!
# Issues

What is wrong with the shape of a value, and where.  A check reports all issues of a value, in the
order of its parts.
-/

namespace EntityCompiler

namespace Issue

/-- One step from a value to a part of it. -/
inductive Step where
  | key (name : String)
  | index (n : Int)
deriving DecidableEq, Repr

/-- What is wrong with a part. -/
inductive Kind where
  | missing
  /-- A key that has no place here. -/
  | extraForbidden
  /-- A key that is not a text. -/
  | invalidKey
  | stringType
  /-- Bytes that are not those of a text. -/
  | stringUnicode
  | stringTooShort
  | boolType
  | intType
  | floatType
  | listType
  | dictType
  | modelType
  | enumeration
  | invalidJson
  /-- A value below too many others. -/
  | tooDeep
  /-- A value that is refused with a reason. -/
  | refused (reason : String)
deriving DecidableEq, Repr

def Kind.name : Kind → String
  | .missing => "missing"
  | .extraForbidden => "extra_forbidden"
  | .invalidKey => "invalid_key"
  | .stringType => "string_type"
  | .stringUnicode => "string_unicode"
  | .stringTooShort => "string_too_short"
  | .boolType => "bool_type"
  | .intType => "int_type"
  | .floatType => "float_type"
  | .listType => "list_type"
  | .dictType => "dict_type"
  | .modelType => "model_type"
  | .enumeration => "enum"
  | .invalidJson => "invalid-json-value"
  | .tooDeep => "recursion_depth_exceeded"
  | .refused _ => "value_error"

/-- The reason shown with an issue. -/
def Kind.message? : Kind → Option String
  | .refused reason => some ("Value error, " ++ reason)
  | _ => none

end Issue

/-- What is wrong with the part of a value at a location. -/
structure Issue where
  location : List Issue.Step
  kind : Issue.Kind
deriving DecidableEq, Repr

/-- The form of a value in a location: as in a message if it can be shown there. -/
def Issue.labelOf (v : Value) : String :=
  if v.isShowable then v.display else "<unprintable " ++ v.typeName ++ " object>"

/-- The step to the entry under a key.  An integer of 64 bits is an index, and any other key has a label
of its own unless it is a text. -/
def Issue.stepOf : Value → Issue.Step
  | .int n =>
    if -9223372036854775808 ≤ n ∧ n < 9223372036854775808 then .index n
    else .key (Issue.labelOf (.int n))
  | .bool b => .index (if b then 1 else 0)
  | v => .key (v.text?.getD (Issue.labelOf v))

/-- The outcome of a check: a value, or the issues found. -/
inductive Checked (α : Type) where
  | accepted (value : α)
  | rejected (issues : List Issue)

namespace Checked

variable {α β : Type}

def map (f : α → β) : Checked α → Checked β
  | .accepted value => .accepted (f value)
  | .rejected issues => .rejected issues

/-- Both outcomes together.  The issues of the second follow those of the first. -/
def both : Checked α → Checked β → Checked (α × β)
  | .accepted a, .accepted b => .accepted (a, b)
  | .accepted _, .rejected issues => .rejected issues
  | .rejected issues, .accepted _ => .rejected issues
  | .rejected first, .rejected second => .rejected (first ++ second)

instance : Applicative Checked where
  pure := .accepted
  map f x := x.map f
  seq f x := (f.both (x ())).map fun (f, x) ↦ f x

/-- A single issue with the value itself. -/
def fail (kind : Issue.Kind) : Checked α :=
  .rejected [⟨[], kind⟩]

/-- The outcome for a part, seen from the value that it belongs to. -/
def below (step : Issue.Step) : Checked α → Checked α
  | .accepted value => .accepted value
  | .rejected issues =>
    .rejected (issues.map fun issue ↦ { issue with location := step :: issue.location })

/-- The outcomes for several parts. -/
def all : List (Checked α) → Checked (List α)
  | [] => .accepted []
  | first :: rest => (first.both (all rest)).map fun (x, xs) ↦ x :: xs

def isAccepted : Checked α → Bool
  | .accepted _ => true
  | .rejected _ => false

/-- The issues that have been found. -/
def issues : Checked α → List Issue
  | .accepted _ => []
  | .rejected issues => issues

def toExcept : Checked α → Except (List Issue) α
  | .accepted value => .ok value
  | .rejected issues => .error issues

end Checked

end EntityCompiler
