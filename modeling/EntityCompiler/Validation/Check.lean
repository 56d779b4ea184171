import EntityCompiler.Shape
import EntityCompiler.Validation.Schema
import EntityCompiler.Value.Depth
import EntityCompiler.Value.Moment

/-!
# Checking records

The check of a record against a schema.  All issues are reported, fields first in their order, then
the keys that have no field.  An accepted record has its dates as moments, its arrays as lists, the keys of
its JSON values as texts and its absent optional fields filled in from their defaults.  JSON values are
looked into up to a limited depth.
-/

namespace EntityCompiler.Validation

/-- The check of a date: a moment, or a text that denotes an instant. -/
def checkDate (v : Value) : Checked Value :=
  match v.toMoment with
  | .ok t => .accepted (.moment t)
  | .error refusal => .fail (.refused refusal.message)

mutual

/-- The form in which a JSON value is accepted: what counts as a text is one, and keys are texts. -/
def jsonForm : Value → Value
  | .list items => .list (jsonFormItems items)
  | .dict entries => .ofFields (Value.membersUnder (entries.map (·.1)) (jsonFormMembers entries))
  | .columnType (.primitive p) => .text p.name
  | v => v

def jsonFormItems : List Value → List Value
  | [] => []
  | item :: rest => jsonForm item :: jsonFormItems rest

def jsonFormMembers : List (Value × Value) → List (String × Value)
  | [] => []
  | (key, value) :: rest => (key.name?.getD "", jsonForm value) :: jsonFormMembers rest

end

/-- The issues seen from the value that the part under some steps belongs to. -/
def issuesBelow (steps : List Issue.Step) (issues : List Issue) : List Issue :=
  issues.map fun issue ↦ { issue with location := steps ++ issue.location }

mutual

/-- What keeps a value from being a JSON value with at most `levels` levels.  Numbers need not be
finite here, but tuples are refused.  What is below the last level is not looked into. -/
def jsonIssues : (levels : Nat) → Value → List Issue
  | 0, _ => [⟨[], .tooDeep⟩]
  | _ + 1, .moment _ => [⟨[], .invalidJson⟩]
  | _ + 1, .tuple _ => [⟨[], .invalidJson⟩]
  | _ + 1, .bytes _ => [⟨[], .invalidJson⟩]
  | _ + 1, .collection _ _ => [⟨[], .invalidJson⟩]
  | _ + 1, .columnType (.arrayOf _) => [⟨[], .invalidJson⟩]
  | levels + 1, .list items => jsonItemIssues levels 0 items
  | levels + 1, .dict entries => jsonEntryIssues levels entries
  | _ + 1, _ => []

/-- The issues of the items from the given index on. -/
def jsonItemIssues (levels index : Nat) : List Value → List Issue
  | [] => []
  | item :: rest =>
    issuesBelow [.key "list", .index index] (jsonIssues levels item) ++
      jsonItemIssues levels (index + 1) rest

def jsonEntryIssues (levels : Nat) : List (Value × Value) → List Issue
  | [] => []
  | (key, value) :: rest =>
    let step := Issue.stepOf key
    issuesBelow [.key "dict", step, .key "[key]"] (Shape.name key).issues ++
      issuesBelow [.key "dict", step] (jsonIssues levels value) ++ jsonEntryIssues levels rest

end

/-- The check of a JSON value. -/
def checkJson (v : Value) : Checked Value :=
  match jsonIssues depthLimit v with
  | [] => .accepted (jsonForm v)
  | issues => .rejected issues

/-- The check of a value of a primitive type. -/
def checkScalar : Primitive → Value → Checked Value
  | .string, v => (Shape.text v).map .text
  | .number, .int n => .accepted (.int n)
  | .number, .float x => .accepted (.float x)
  | .number, _ => .rejected [⟨[.key "int"], .intType⟩, ⟨[.key "float"], .floatType⟩]
  | .integer, .int n => .accepted (.int n)
  | .integer, _ => .fail .intType
  | .boolean, .bool b => .accepted (.bool b)
  | .boolean, _ => .fail .boolType
  | .date, v => checkDate v
  | .json, v => checkJson v

/-- The check of a value against a node. -/
def Node.check : Node → Value → Checked Value
  | .scalar p, v => checkScalar p v
  | .sequence element, v => (Shape.list element.check v).map .list

/-- The check of a field that is present. -/
def Field.check (f : Field) : Value → Checked Value
  | .null =>
    if f.nullable then .accepted .null
    else if f.node = .scalar .json then .fail (.refused "null is not allowed")
    else f.node.check .null
  | v => f.node.check v

/-- The name of the place for the field at an index of a schema. -/
def placeName (index : Nat) : String :=
  "f_" ++ Numeral.ofNat index

/-- What a record has under a field: the value that is there, the default of an absent optional
field, or nothing.  Issues of a value are found under the name of the field, issues of a default in the
place of the field. -/
def Field.value? (f : Field) (place : String) (record : List (Value × Value)) :
    Checked (Option (String × Value)) :=
  let found (label : String) (v : Value) : Checked (Option (String × Value)) :=
    ((f.check v).below (.key label)).map fun v ↦ some (f.name, v)
  match Value.lookup? f.name record with
  | some v => found f.name v
  | none =>
    if f.required then .rejected [⟨[.key f.name], .missing⟩]
    else
      match f.default with
      | some value => found place value.toValue
      | none => .accepted none

/-- The check of a record.  The result has the fields in the order of the schema. -/
def Schema.check (s : Schema) (record : List (Value × Value)) : Checked (List (String × Value)) :=
  let values := s.fields.zipIdx.map fun (f, index) ↦ f.value? (placeName index) record
  let fields := (Checked.all values).map (·.filterMap id)
  if s.strict then fields <* Shape.noOthers s.fieldNames record else fields

/-- The validated form of a record, or its issues. -/
def Schema.validate (s : Schema) (record : List (Value × Value)) :
    Except (List Issue) (List (String × Value)) :=
  (s.check record).toExcept

/-- Whether a record satisfies the schema. -/
def Schema.isValid (s : Schema) (record : List (Value × Value)) : Bool :=
  (s.check record).isAccepted

end EntityCompiler.Validation
