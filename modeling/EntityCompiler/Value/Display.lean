import EntityCompiler.Text.Quoted
import EntityCompiler.Value.Basic

/-!
# Values in messages

The form in which a value is shown inside a message.
-/

namespace EntityCompiler.Value

def boolText (b : Bool) : String :=
  if b then "True" else "False"

/-- The offset of a moment as a span of time: days are whole, seconds and microseconds are not negative,
and only the parts that are not zero are named. -/
def offsetText (o : Offset) : String :=
  if o.microseconds = 0 then "datetime.timezone.utc"
  else
    let time := (o.microseconds % 86400000000).toNat
    let days := if o.microseconds < 0 then ["days=-1"] else []
    let seconds := if time / 1000000 = 0 then [] else ["seconds=" ++ Numeral.ofNat (time / 1000000)]
    let microseconds :=
      if time % 1000000 = 0 then [] else ["microseconds=" ++ Numeral.ofNat (time % 1000000)]
    "datetime.timezone(datetime.timedelta(" ++ ", ".intercalate (days ++ seconds ++ microseconds) ++
      "))"

/-- A moment by its fields.  Seconds and microseconds are left out when they are zero. -/
def momentText (t : Moment) : String :=
  let clock := t.clock
  let small :=
    if clock.microsecond.val ≠ 0 then [clock.second.val, clock.microsecond.val]
    else if clock.second.val ≠ 0 then [clock.second.val]
    else []
  let fields := [t.date.year, t.date.month, t.date.day, clock.hour.val, clock.minute.val] ++ small
  let zone := match t.offset with
    | some o => ["tzinfo=" ++ offsetText o]
    | none => []
  "datetime.datetime(" ++ ", ".intercalate (fields.map Numeral.ofNat ++ zone) ++ ")"

/-- A parsed column type by its constructors. -/
def typeText : ColumnType → String
  | .primitive p =>
    "<PrimitiveType." ++ p.name.map Char.toUpper ++ ": " ++ Text.quoted p.name ++ ">"
  | .arrayOf element => "ArrayOf(element=" ++ typeText element ++ ")"

/-- A collection with the given items. -/
def collectionText (kind : Collection) (items : List String) : String :=
  let shown := ", ".intercalate items
  match kind with
  | .set => if items = [] then "set()" else "\x7b" ++ shown ++ "\x7d"
  | .frozenset => if items = [] then "frozenset()" else "frozenset(\x7b" ++ shown ++ "\x7d)"
  | .deque none => "deque([" ++ shown ++ "])"
  | .deque (some limit) => "deque([" ++ shown ++ "], maxlen=" ++ Numeral.ofNat limit ++ ")"
  | .generator name place =>
    "<generator object " ++ name ++ " at 0x" ++ String.ofList (Numeral.hexDigits 1 place) ++ ">"

mutual

/-- The form of a value in a message. -/
def display : Value → String
  | .null => "None"
  | .bool b => boolText b
  | .int n => Numeral.ofInt n
  | .float x => x.text
  | .text s => Text.quoted s
  | .bytes data => Text.quotedBytes data
  | .moment t => momentText t
  | .list items => "[" ++ ", ".intercalate (displayItems items) ++ "]"
  | .tuple items =>
    match displayItems items with
    | [single] => "(" ++ single ++ ",)"
    | several => "(" ++ ", ".intercalate several ++ ")"
  | .collection kind items => collectionText kind (displayItems items)
  | .dict entries => "\x7b" ++ ", ".intercalate (displayEntries entries) ++ "\x7d"
  | .columnType t => typeText t

def displayItems : List Value → List String
  | [] => []
  | item :: rest => display item :: displayItems rest

def displayEntries : List (Value × Value) → List String
  | [] => []
  | (key, value) :: rest => (display key ++ ": " ++ display value) :: displayEntries rest

end

mutual

/-- Whether a value can be shown in a message: no integer that is shown has too many digits. -/
def isShowable : Value → Bool
  | .int n => Numeral.isWritable n
  | .list items => itemsShowable items
  | .tuple items => itemsShowable items
  | .collection (.generator _ _) _ => true
  | .collection _ items => itemsShowable items
  | .dict entries => entriesShowable entries
  | _ => true

def itemsShowable : List Value → Bool
  | [] => true
  | item :: rest => isShowable item && itemsShowable rest

def entriesShowable : List (Value × Value) → Bool
  | [] => true
  | (key, value) :: rest => isShowable key && isShowable value && entriesShowable rest

end

/-- The form of a value within a text of its own: a text is taken as it is, and a primitive column
type goes by the name of its constructor. -/
def inlineText : Value → String
  | .text s => s
  | .columnType (.primitive p) => "PrimitiveType." ++ p.name.map Char.toUpper
  | .moment t => t.spacedText
  | v => v.display

/-- Several names as a list in a message. -/
def displayNames (names : List String) : String :=
  (list (names.map .text)).display

end EntityCompiler.Value
