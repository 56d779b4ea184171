import EntityCompiler.Calendar.Moment
import EntityCompiler.Column.Type
import EntityCompiler.Json.Basic
import EntityCompiler.Text.Bytes

/-!
# Values

The dynamic values that specifications and records are made of, with their comparison and their
relation to JSON values.
-/

namespace EntityCompiler

/-- The kinds of collections that are neither lists nor tuples. -/
inductive Collection where
  | set
  | frozenset
  /-- A queue, which may be limited to a number of items. -/
  | deque (limit : Option Nat)
  /-- A generator of items by the name of its function and its place in memory. -/
  | generator (name : String) (place : Nat)
deriving DecidableEq, Repr

namespace Collection

def typeName : Collection → String
  | .set => "set"
  | .frozenset => "frozenset"
  | .deque _ => "deque"
  | .generator _ _ => "generator"

/-- Whether the order of the items does not count. -/
def isSet : Collection → Bool
  | .set => true
  | .frozenset => true
  | _ => false

/-- Whether collections of the two kinds are equal when their items are. -/
def agrees : Collection → Collection → Bool
  | .deque _, .deque _ => true
  | .generator name place, .generator other otherPlace => name = other && place = otherPlace
  | kind, other => kind.isSet && other.isSet

theorem agrees_self (kind : Collection) : kind.agrees kind = true := by
  cases kind <;> simp [agrees, isSet]

end Collection

/-- A dynamic value.  The entries of a dictionary keep their order, and so do the items of a
collection. -/
inductive Value where
  | null
  | bool (b : Bool)
  | int (n : Int)
  | float (x : Binary64)
  | text (s : String)
  | bytes (data : List UInt8)
  | moment (t : Moment)
  | list (items : List Value)
  | tuple (items : List Value)
  | collection (kind : Collection) (items : List Value)
  | dict (entries : List (Value × Value))
  /-- A column type that has been parsed before. -/
  | columnType (t : ColumnType)
deriving Inhabited

namespace Value

/-- The name of the kind of a value in messages. -/
def typeName : Value → String
  | .null => "NoneType"
  | .bool _ => "bool"
  | .int _ => "int"
  | .float _ => "float"
  | .text _ => "str"
  | .bytes _ => "bytes"
  | .moment _ => "datetime"
  | .list _ => "list"
  | .tuple _ => "tuple"
  | .collection kind _ => kind.typeName
  | .dict _ => "dict"
  | .columnType (.primitive _) => "PrimitiveType"
  | .columnType (.arrayOf _) => "ArrayOf"

/-- The text that a value is.  A primitive column type is the text of its name. -/
def text? : Value → Option String
  | .text s => some s
  | .columnType (.primitive p) => some p.name
  | _ => none

@[simp]
theorem text?_text (s : String) : (Value.text s).text? = some s := rfl

@[simp]
theorem text?_primitive (p : Primitive) : (Value.columnType (.primitive p)).text? = some p.name := rfl

theorem text?_eq_some_iff {v : Value} {s : String} : v.text? = some s ↔
    v = .text s ∨ ∃ p : Primitive, v = .columnType (.primitive p) ∧ p.name = s := by
  cases v with
  | columnType t => cases t <;> simp [text?]
  | _ => simp [text?]

/-- The value as the text that it is, if it is one. -/
def asText (v : Value) : Value :=
  (v.text?.map .text).getD v

@[simp]
theorem asText_text (s : String) : (Value.text s).asText = .text s := rfl

theorem asText_of_text? {v : Value} {s : String} (h : v.text? = some s) : v.asText = .text s := by
  rw [asText, h]
  rfl

/-- The name that a value can stand for: the text that it is, or the one with its bytes. -/
def name? : Value → Option String
  | .bytes data => Text.ofUtf8? data
  | v => v.text?

def isBytes : Value → Bool
  | .bytes _ => true
  | _ => false

/-- The members that the entries under some keys become.  Names are distinct unless some of them are
given by their bytes; then the last value under a name counts, in the place of the first. -/
def membersUnder {α : Type} (keys : List Value) (members : List (String × α)) : List (String × α) :=
  if keys.any isBytes then
    members.foldl (fun found (name, value) ↦ Json.putMember name value found) []
  else members

/-- The entries of a dictionary under a textual key, of several the first. -/
def lookup? (key : String) : List (Value × Value) → Option Value
  | [] => none
  | (label, value) :: rest => if label.text? = some key then some value else lookup? key rest

theorem lookup?_text_cons {key name : String} {value : Value} {rest : List (Value × Value)} :
    lookup? key ((.text name, value) :: rest) =
      if name = key then some value else lookup? key rest := by
  simp [lookup?]

/-- The items of a list or tuple. -/
def items? : Value → Option (List Value)
  | .list items => some items
  | .tuple items => some items
  | _ => none

/-- The items of a list, a tuple or another collection. -/
def elements? : Value → Option (List Value)
  | .list items => some items
  | .tuple items => some items
  | .collection _ items => some items
  | _ => none

/-- The dictionary with textual keys. -/
def ofFields (fields : List (String × Value)) : Value :=
  .dict (fields.map fun (key, value) ↦ (.text key, value))

/-- Whether a value counts as true in a setting: all do but null, zero and what is empty. -/
def isTrue : Value → Bool
  | .null => false
  | .bool b => b
  | .int n => n ≠ 0
  | .float (.finite x) => x.significand ≠ 0
  | .float _ => true
  | .text s => s ≠ ""
  | .bytes data => !data.isEmpty
  | .moment _ => true
  | .list items => !items.isEmpty
  | .tuple items => !items.isEmpty
  | .collection (.generator _ _) _ => true
  | .collection _ items => !items.isEmpty
  | .dict entries => !entries.isEmpty
  | .columnType _ => true

/-- The integer that a number equals.  Truth values count as 0 and 1. -/
def integral? : Value → Option Int
  | .bool b => some (if b then 1 else 0)
  | .int n => some n
  | .float x => x.toInt?
  | _ => none

/-- Whether two scalar values are equal.  Numbers are compared by value, whatever their kind, and a
primitive column type equals the text of its name. -/
def scalarAlike : Value → Value → Bool
  | .null, .null => true
  | .text s, .text t => s = t
  | .text s, .columnType (.primitive p) => s = p.name
  | .columnType (.primitive p), .text t => p.name = t
  | .bytes s, .bytes t => s = t
  | .moment s, .moment t => s.sameInstant t
  | .columnType s, .columnType t => s = t
  | .float x, .float y => x.sameValue y
  | v, w =>
    match v.integral?, w.integral? with
    | some m, some n => m = n
    | _, _ => false

mutual

/-- Whether two values are equal: numbers by value, lists and tuples item by item, sets and dictionaries
whatever the order of what is in them. -/
def alike : Value → Value → Bool
  | .list items, w =>
    match w with
    | .list others => itemsAlike items others
    | _ => false
  | .tuple items, w =>
    match w with
    | .tuple others => itemsAlike items others
    | _ => false
  | .collection kind items, w =>
    match w with
    | .collection other others =>
      kind.agrees other &&
        if kind.isSet then items.length = others.length && membersAlike items others
        else itemsAlike items others
    | _ => false
  | .dict entries, w =>
    match w with
    | .dict others => entries.length = others.length && entriesAlike entries others
    | _ => false
  | v, w => scalarAlike v w

def itemsAlike : List Value → List Value → Bool
  | [], [] => true
  | v :: vs, w :: ws => alike v w && itemsAlike vs ws
  | _, _ => false

/-- Whether each item has an equal one among `others`. -/
def membersAlike : List Value → List Value → Bool
  | [], _ => true
  | v :: vs, others => (others.any fun other ↦ alike v other) && membersAlike vs others
termination_by structural items => items

/-- Whether each entry has an equal one among `others`. -/
def entriesAlike : List (Value × Value) → List (Value × Value) → Bool
  | [], _ => true
  | (key, value) :: rest, others =>
    (others.any fun other ↦ alike key other.1 && alike value other.2) && entriesAlike rest others

end

/-- The entries with a value put under a key.  An equal key keeps its place and its spelling. -/
def putEntry (key value : Value) : List (Value × Value) → List (Value × Value)
  | [] => [(key, value)]
  | (k, v) :: rest =>
    if k.alike key then (k, value) :: rest else (k, v) :: putEntry key value rest

/-- The entries with all `pairs` put in, one after the other. -/
def putEntries (pairs entries : List (Value × Value)) : List (Value × Value) :=
  pairs.foldl (fun entries (key, value) ↦ putEntry key value entries) entries

/-- The entries of a dictionary given by a list in which a key may occur more than once. -/
def entriesOfList (pairs : List (Value × Value)) : List (Value × Value) :=
  putEntries pairs []

/-! ## Relation to JSON -/

mutual

/-- The JSON value that a value stands for.  Tuples count as arrays.  Numbers have to be finite and
keys have to be texts. -/
def toJson? : Value → Option Json
  | .null => some .null
  | .bool b => some (.bool b)
  | .int n => some (.int n)
  | .float (.finite x) => some (.float x)
  | .float _ => none
  | .text s => some (.text s)
  | .bytes _ => none
  | .moment _ => none
  | .list items => (itemsToJson? items).map .array
  | .tuple items => (itemsToJson? items).map .array
  | .collection _ _ => none
  | .dict entries => (entriesToJson? entries).map .object
  | .columnType (.primitive p) => some (.text p.name)
  | .columnType (.arrayOf _) => none

def itemsToJson? : List Value → Option (List Json)
  | [] => some []
  | item :: rest => do
    let item ← toJson? item
    let rest ← itemsToJson? rest
    return item :: rest

def entriesToJson? : List (Value × Value) → Option (List (String × Json))
  | [] => some []
  | (key, value) :: rest => do
    let key ← key.text?
    let value ← toJson? value
    let rest ← entriesToJson? rest
    return (key, value) :: rest

end

/-- Whether a value can be written as JSON. -/
def isJson (v : Value) : Bool :=
  v.toJson?.isSome

mutual

/-- The value with every tuple replaced by a list. -/
def untupled : Value → Value
  | .list items => .list (untupledItems items)
  | .tuple items => .list (untupledItems items)
  | .dict entries => .dict (untupledEntries entries)
  | v => v

def untupledItems : List Value → List Value
  | [] => []
  | item :: rest => untupled item :: untupledItems rest

def untupledEntries : List (Value × Value) → List (Value × Value)
  | [] => []
  | (key, value) :: rest => (key, untupled value) :: untupledEntries rest

end

end Value

mutual

/-- A JSON value as a dynamic value. -/
def Json.toValue : Json → Value
  | .null => .null
  | .bool b => .bool b
  | .int n => .int n
  | .float x => .float (.finite x)
  | .text s => .text s
  | .array items => .list (jsonItems items)
  | .object members => .dict (jsonEntries members)

def jsonItems : List Json → List Value
  | [] => []
  | item :: rest => item.toValue :: jsonItems rest

def jsonEntries : List (String × Json) → List (Value × Value)
  | [] => []
  | (key, value) :: rest => (.text key, value.toValue) :: jsonEntries rest

end

/-- Whether two JSON values are equal: numbers by value, objects whatever the order of their
members. -/
def Json.alike (a b : Json) : Bool :=
  a.toValue.alike b.toValue

end EntityCompiler
