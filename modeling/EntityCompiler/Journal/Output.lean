import EntityCompiler.Journal.Line
import EntityCompiler.Text.Lowercase
import EntityCompiler.Text.Uppercase

/-!
# Output of records

The single output that records are written to: from which level on, and in which form.
-/

namespace EntityCompiler.Journal

namespace Level

/-- The level of a name in any case.  A name that says nothing means the level of information; two
names are taken for texts that have never been levels. -/
def ofName (name : String) : Except Failure Int :=
  match Text.toAsciiCapitals name with
  | "CRITICAL" => .ok 50
  | "FATAL" => .ok 50
  | "ERROR" => .ok 40
  | "WARNING" => .ok 30
  | "WARN" => .ok 30
  | "INFO" => .ok 20
  | "DEBUG" => .ok 10
  | "NOTSET" => .ok 0
  | "BASIC_FORMAT" => .error (.unknownLevel "%(levelname)s:%(name)s:%(message)s")
  | "_STYLES" => .error .levelType
  | _ => .ok info

/-- The level that a number or a name gives. -/
def ofValue : Value → Except Failure Int
  | .text name => ofName name
  | .int level => .ok level
  | .bool b => .ok (if b then 1 else 0)
  | _ => .error .levelType

end Level

/-- How records are written out. -/
inductive Form where
  | line
  | json
deriving DecidableEq, Repr

/-- The output that records are written to. -/
structure Output where
  level : Int
  form : Form
deriving DecidableEq, Repr

namespace Output

/-- The form that is asked for, by a flag or by the value of an environment variable. -/
def formOf (json : Bool) (requested : Option String) : Form :=
  if json || requested.any fun word ↦ Text.lower word = "json" then .json else .line

/-- The output for given settings. -/
def configure (level : Value) (json : Bool) (requested : Option String) :
    Except Failure Output := do
  let level ← Level.ofValue level
  return { level, form := formOf json requested }

/-- The text of a record. -/
def text (output : Output) (now : Moment) (context : Context) (report : Report) :
    Except Failure String :=
  match output.form with
  | .line => .ok (report.line now context)
  | .json => report.jsonLine {} now context

/-- Whether records of a level are written.  Levels that are not positive are switched off. -/
def admits (output : Output) (level : Int) : Bool :=
  0 < level && output.level ≤ level

/-- What is written for several records.  Records of levels that are not admitted are left out, and
so are those that have no text. -/
def write (output : Output) (now : Moment) (context : Context) (reports : List Report) : String :=
  let texts := (reports.filter fun report ↦ output.admits report.record.level).filterMap fun report ↦
    (output.text now context report).toOption
  String.join (texts.map (· ++ "\n"))

end Output

end EntityCompiler.Journal
