/-!
# Load of a store

Every store starts with `initialCapacity` places. Before an insertion the array doubles once
it is three quarters full, and after a removal it halves when it is at most a quarter full,
but never below the initial capacity.
-/

namespace TableEngine

/-- The number of places of a new store, and the least number of any store. -/
def initialCapacity : Nat := 16

/-- The store is at least three quarters full. -/
def needsGrow (size capacity : Nat) : Bool := size * 4 ≥ capacity * 3

/-- The store is at most a quarter full and may halve. -/
def needsShrink (size capacity : Nat) : Bool := size * 4 ≤ capacity && capacity > initialCapacity

/-- A key with its value. -/
structure Entry (K V : Type) where
  key : K
  value : V
  deriving DecidableEq, Repr

end TableEngine
