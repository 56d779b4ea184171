import EntityCompiler.Error
import EntityCompiler.Value.Depth

/-!
# Values that can be written out

What keeps a value from having a plain form: too many levels, bytes that are no text, and keys and
collections that have none.
-/

namespace EntityCompiler.Value

/-- What keeps bytes from being written as a text. -/
def bytesFault? (data : List UInt8) : Option EntityError :=
  if (Text.ofUtf8? data).isSome then none else some (.notUtf8 data)

mutual

/-- What keeps a key from becoming a text. -/
def keyFault? : Value → Option EntityError
  | .int n => if Numeral.isWritable n then none else some .tooManyDigits
  | .bytes data => bytesFault? data
  | .list _ => some (.notAKey "list")
  | .tuple items => keyFaults? items
  | .collection (.deque _) _ => some .notSerializable
  | .collection kind _ => some (.notAKey kind.typeName)
  | .dict _ => some (.notAKey "dict")
  | _ => none

def keyFaults? : List Value → Option EntityError
  | [] => none
  | item :: rest => (keyFault? item).or (keyFaults? rest)

end

mutual

/-- What keeps a value from being written out with at most `levels` levels, of several things the first.
A column type has a level for each of its arrays, one for its primitive and one for the name of that. -/
def dumpFault? : (levels : Nat) → Value → Option EntityError
  | 0, _ => some .tooDeep
  | _ + 1, .bytes data => bytesFault? data
  | levels + 1, .list items => itemsFault? levels items
  | levels + 1, .tuple items => itemsFault? levels items
  | _ + 1, .collection (.deque _) _ => some .notSerializable
  | levels + 1, .collection _ items => itemsFault? levels items
  | levels + 1, .dict entries => entriesFault? levels entries
  | levels + 1, .columnType t => if t.depth < levels then none else some .tooDeep
  | _ + 1, _ => none

def itemsFault? (levels : Nat) : List Value → Option EntityError
  | [] => none
  | item :: rest => (dumpFault? levels item).or (itemsFault? levels rest)

def entriesFault? (levels : Nat) : List (Value × Value) → Option EntityError
  | [] => none
  | (key, value) :: rest =>
    ((keyFault? key).or (dumpFault? levels value)).or (entriesFault? levels rest)

end

end EntityCompiler.Value
