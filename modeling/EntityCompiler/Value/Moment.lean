import EntityCompiler.Calendar.Instant
import EntityCompiler.Value.Display

/-!
# Moments of values

The moment that a value denotes: a moment is taken as it is, and a text is read.  No name of a column
type denotes one.
-/

namespace EntityCompiler.Value

/-- The moment that a value denotes. -/
def toMoment : Value → Except Instant.Refusal Moment
  | .moment t => .ok t
  | .text s => Instant.read s
  | .columnType (.primitive p) => .error (.columnType (typeText (.primitive p)))
  | v => .error (.notAText v.typeName)

end EntityCompiler.Value
