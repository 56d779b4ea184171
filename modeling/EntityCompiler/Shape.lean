import EntityCompiler.Issue

/-!
# Shapes

Readers for the parts of a value.  Each reader accepts a value of one shape or reports its issues;
the readers for the keys of a dictionary are combined so that all issues are reported.
-/

namespace EntityCompiler

namespace Shape

variable {α : Type}

/-! ## Parts of a dictionary -/

/-- The spelling of a key that is used: the first one that is present. -/
def spelling (key : String) (others : List String) (entries : List (Value × Value)) : String :=
  ((key :: others).find? fun k ↦ (Value.lookup? k entries).isSome).getD key

/-- A part that has to be present. -/
def required (key : String) (read : Value → Checked α) (entries : List (Value × Value)) :
    Checked α :=
  match Value.lookup? key entries with
  | some v => (read v).below (.key key)
  | none => .rejected [⟨[.key key], .missing⟩]

/-- A part that has a value of its own when it is absent. -/
def optional (absent : α) (key : String) (read : Value → Checked α)
    (entries : List (Value × Value)) : Checked α :=
  match Value.lookup? key entries with
  | some v => (read v).below (.key key)
  | none => .accepted absent

/-- Reports the keys that have no place. -/
def noOthers (known : List String) : List (Value × Value) → Checked Unit
  | [] => .accepted ()
  | (key, _) :: rest =>
    let here : Checked Unit :=
      match key.text? with
      | some k => if known.contains k then .accepted () else .rejected [⟨[.key k], .extraForbidden⟩]
      | none => .rejected [⟨[Issue.stepOf key], .invalidKey⟩]
    (here.both (noOthers known rest)).map fun _ ↦ ()

/-! ## Scalars -/

def flag : Value → Checked Bool
  | .bool b => .accepted b
  | _ => .fail .boolType

def text (v : Value) : Checked String :=
  match v.text? with
  | some s => .accepted s
  | none => .fail .stringType

/-- A text that is not empty. -/
def nonempty (v : Value) : Checked String :=
  match v.text? with
  | some s => if s = "" then .fail .stringTooShort else .accepted s
  | none => .fail .stringType

/-- A text, which may be given by its bytes. -/
def name (v : Value) : Checked String :=
  match v with
  | .bytes data =>
    match Text.ofUtf8? data with
    | some s => .accepted s
    | none => .fail .stringUnicode
  | v => text v

/-- A value that may be null. -/
def orNull (read : Value → Checked α) : Value → Checked (Option α)
  | .null => .accepted none
  | v => (read v).map some

/-- One of a closed set of values, given by its name. -/
def oneOf (all : List α) (name : α → String) (v : Value) : Checked α :=
  match v.text? with
  | some s =>
    match all.find? fun x ↦ name x = s with
    | some x => .accepted x
    | none => .fail .enumeration
  | none => .fail .enumeration

/-- A list, a tuple or another collection. -/
def list (read : Value → Checked α) (v : Value) : Checked (List α) :=
  match v.elements? with
  | some items => .all (items.mapIdx fun i item ↦ (read item).below (.index i))
  | none => .fail .listType

/-- An entry of a dictionary whose keys are names. -/
def member (read : Value → Checked α) (entry : Value × Value) : Checked (String × α) :=
  (((name entry.1).below (.key "[key]")).both (read entry.2)).below (Issue.stepOf entry.1)

/-- A dictionary whose keys are names. -/
def mapping (read : Value → Checked α) : Value → Checked (List (String × α))
  | .dict entries =>
    (Checked.all (entries.map (member read))).map (Value.membersUnder (entries.map (·.1)))
  | _ => .fail .dictType

/-- A value of any kind. -/
def any (v : Value) : Checked Value := .accepted v

end Shape

end EntityCompiler
