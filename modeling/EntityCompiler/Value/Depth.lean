import EntityCompiler.Value.Basic

/-!
# Depth of values

How deeply a value is nested.  There is a limit where values are checked one inside the other and
where they become part of a larger object.
-/

namespace EntityCompiler

/-- The number of levels that a value may have. -/
def depthLimit : Nat := 255

namespace Value

mutual

/-- The number of levels of a value.  A scalar has one level, and a list, another collection or a
dictionary has one more than the deepest of its parts; keys do not count. -/
def depth : Value → Nat
  | .list items => itemsDepth items + 1
  | .tuple items => itemsDepth items + 1
  | .collection _ items => itemsDepth items + 1
  | .dict entries => entriesDepth entries + 1
  | _ => 1

def itemsDepth : List Value → Nat
  | [] => 0
  | item :: rest => max (depth item) (itemsDepth rest)

def entriesDepth : List (Value × Value) → Nat
  | [] => 0
  | (_, value) :: rest => max (depth value) (entriesDepth rest)

end

end Value

/-- The number of levels of a JSON value. -/
def Json.depth (value : Json) : Nat :=
  value.toValue.depth

end EntityCompiler
