import EntityCompiler.Entity.Build

/-!
# Stores of definitions

A store keeps the definitions built last and gives one back when a specification with the same
fingerprint is built again.  It is full at its capacity; then the definition whose last build is
longest ago leaves it.
-/

namespace EntityCompiler

/-- A definition with the number of the build that made it. -/
structure Stored where
  entity : Entity
  serial : Nat

/-- The definitions built last, the latest at the end. -/
structure Store where
  capacity : Nat
  entries : List Stored := []
  hits : Nat := 0
  misses : Nat := 0
  /-- The number of builds that succeeded so far. -/
  built : Nat := 0

namespace Store

/-- How a build was answered. -/
inductive Outcome where
  /-- The store has no room for any definition. -/
  | unstored
  | hit
  /-- The definition is new in the store, and some others have left it. -/
  | miss (evicted : List Stored)

/-- The empty store.  A negative capacity counts as zero. -/
def ofCapacity (capacity : Int) : Store where
  capacity := capacity.toNat

/-- The definition with a given fingerprint. -/
def find? (s : Store) (fingerprint : String) : Option Stored :=
  s.entries.find? fun x ↦ x.entity.fingerprint = fingerprint

/-- The definition that a new build makes. -/
def fresh (s : Store) (e : Entity) : Stored :=
  ⟨e, s.built⟩

/-- The store after a definition has been found in it. -/
def touch (s : Store) (found : Stored) : Store :=
  { s with
    entries := s.entries.filter (fun x ↦ x.entity.fingerprint ≠ found.entity.fingerprint) ++ [found]
    hits := s.hits + 1
    built := s.built + 1 }

/-- The number of entries that are too many once one more is added. -/
def excess (s : Store) : Nat :=
  s.entries.length + 1 - s.capacity

/-- The store after a definition that is not in it has been added. -/
def insert (s : Store) (e : Entity) : Store :=
  { s with
    entries := (s.entries ++ [s.fresh e]).drop s.excess
    misses := s.misses + 1
    built := s.built + 1 }

/-- The definition for a built entity, how it was found, and the store afterwards. -/
def add (s : Store) (e : Entity) : Stored × Outcome × Store :=
  if s.capacity = 0 then (s.fresh e, .unstored, { s with built := s.built + 1 })
  else
    match s.find? e.fingerprint with
    | some found => (found, .hit, s.touch found)
    | none =>
      (s.fresh e, .miss ((s.entries ++ [s.fresh e]).take s.excess), s.insert e)

/-- The definition for an accepted build.  A rejected one leaves the store unchanged. -/
def serve (s : Store) (result : Except EntityError Entity) : Except EntityError Stored × Store :=
  match result with
  | .error e => (.error e, s)
  | .ok entity =>
    let (stored, _, after) := s.add entity
    (.ok stored, after)

/-- Builds the entity that a value describes, or gives back the definition that the store has. -/
def build (s : Store) (v : Value) : Except EntityError Stored × Store :=
  s.serve (Entity.build v)

/-- The store without its definitions and with its counters at zero. -/
def clear (s : Store) : Store :=
  { s with entries := [], hits := 0, misses := 0 }

end Store

end EntityCompiler
