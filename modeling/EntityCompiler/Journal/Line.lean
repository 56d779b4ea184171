import EntityCompiler.Journal.Basic
import EntityCompiler.Value.JsonText

/-!
# Lines of records

The two texts of a record: a line for readers and a line of JSON.  Both show the time, the record
and the context in which it is written out.
-/

namespace EntityCompiler.Journal

/-- The place in a program that a record comes from. -/
structure Origin where
  path : String
  line : Int
  function : Option String

/-- The file at the end of the path. -/
def Origin.file (origin : Origin) : String :=
  String.ofList (origin.path.toList.reverse.takeWhile (· ≠ '/')).reverse

/-- An error that is reported with a record: its kind and its text. -/
structure Trouble where
  kind : String
  text : String

/-- The kind of an error and its text, if it has one. -/
def Trouble.message (trouble : Trouble) : String :=
  if trouble.text = "" then trouble.kind else trouble.kind ++ ": " ++ trouble.text

/-- A record with all that its line shows. -/
structure Report where
  record : Record
  origin : Origin
  trouble : Option Trouble := none

/-! ## Lines for readers -/

/-- Date and time up to the second. -/
def timeText (now : Moment) : String :=
  now.date.shortText ++ " " ++ now.clock.text

/-- A text with blanks after it up to a width. -/
def padRight (width : Nat) (s : String) : String :=
  s ++ String.ofList (List.replicate (width - s.length) ' ')

/-- The location of a context in brackets. -/
def locationText (context : Context) : String :=
  match context.location with
  | [] => ""
  | settings =>
    " [" ++ ", ".intercalate (settings.map fun (name, value) ↦ name ++ "=" ++ value.inlineText) ++ "]"

/-- The data of a record after its message. -/
def dataText (data : List (Value × Value)) : String :=
  if data.isEmpty then "" else " " ++ (Value.dict data).display

/-- The error of a record on the lines after it. -/
def troubleText : Option Trouble → String
  | some trouble => "\n" ++ trouble.message
  | none => ""

/-- The line for readers. -/
def Report.line (report : Report) (now : Moment) (context : Context) : String :=
  timeText now ++ " " ++ padRight 8 (Level.name report.record.level) ++ " " ++
    report.record.logger ++ locationText context ++ ": " ++ report.record.message ++
    dataText report.record.data ++ troubleText report.trouble

/-! ## Lines of JSON -/

/-- Which members a line of JSON has besides those that every line has. -/
structure JsonLayout where
  timestamp : Bool := true
  level : Bool := true
  logger : Bool := true
  context : Bool := true
deriving DecidableEq, Repr

namespace JsonLayout

/-- The layout with one of its members replaced by a named argument. -/
def put (layout : JsonLayout) : Value × Value → Except Failure JsonLayout
  | (.text "include_timestamp", v) => .ok { layout with timestamp := v.isTrue }
  | (.text "include_level", v) => .ok { layout with level := v.isTrue }
  | (.text "include_logger", v) => .ok { layout with logger := v.isTrue }
  | (.text "include_context", v) => .ok { layout with context := v.isTrue }
  | _ => .error .unknownField

/-- The layout given by named arguments. -/
def ofEntries (entries : List (Value × Value)) : Except Failure JsonLayout :=
  entries.foldlM put {}

end JsonLayout

/-- Date and time with microseconds. -/
def timestampText (now : Moment) : String :=
  now.date.shortText ++ "T" ++ now.clock.text ++ "." ++ Numeral.padded 6 now.clock.microsecond.val ++
    "Z"

/-- A member that is there only when a condition holds. -/
def fieldIf (condition : Bool) (name : String) (value : Value) : List (String × Value) :=
  if condition then [(name, value)] else []

/-- A text or `null`. -/
def textOrNull : Option String → Value
  | some s => .text s
  | none => .null

/-- The members of a line of JSON. -/
def Report.fields (report : Report) (layout : JsonLayout) (now : Moment) (context : Context) :
    List (String × Value) :=
  let entries := if layout.context then context.entries else []
  let trouble := match report.trouble with
    | some trouble => [("exception", .text trouble.message)]
    | none => []
  fieldIf layout.timestamp "timestamp" (.text (timestampText now)) ++
    fieldIf layout.level "level" (.text (Level.name report.record.level)) ++
    fieldIf layout.logger "logger" (.text report.record.logger) ++
    [("message", .text report.record.message)] ++
    fieldIf (!entries.isEmpty) "context" (.dict entries) ++
    fieldIf (!report.record.data.isEmpty) "data" (.dict report.record.data) ++ trouble ++
    [("source", Value.ofFields [("file", .text report.origin.file),
      ("line", .int report.origin.line), ("function", textOrNull report.origin.function)])]

/-- The line of JSON, if every key has a text. -/
def Report.jsonLine (report : Report) (layout : JsonLayout) (now : Moment) (context : Context) :
    Except Failure String :=
  match (Value.ofFields (report.fields layout now context)).jsonText? with
  | some text => .ok text
  | none => .error .notJson

end EntityCompiler.Journal
