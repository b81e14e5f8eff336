import TableEngine.Number.Binary64

/-!
# Generators

What is random comes from a generator. A seed fixes its first state, and every draw leaves the
state for the next one, so that a seed fixes all that is drawn. Computations that draw
(`Draw`) take the generator as a parameter.

All that they count on is that a position lies below its bound (`Generator.InRange`).
-/

namespace TableEngine.Sampling

/-- A source of random values. -/
structure Generator where
  State : Type
  /-- The state of a seed. -/
  ofSeed : UInt64 → State
  /-- A position below `n`. -/
  position (n : Nat) : StateM State Nat
  /-- A number from `low` up to but not including `high`. -/
  between (low high : Nat) : StateM State Nat
  /-- A number from `low` up to and including `high`. -/
  through (low high : Nat) : StateM State Nat
  /-- A fair coin. -/
  coin : StateM State Bool
  /-- A number from 0 up to but not including 1. -/
  fraction : StateM State Binary64

/-- A computation that draws from a generator. -/
abbrev Draw (g : Generator) := StateM g.State

/-- Whatever the state, a position is below its bound. -/
def Generator.InRange (g : Generator) : Prop :=
  ∀ n, 0 < n → ∀ s, (StateT.run (g.position n) s).1 < n

variable (g : Generator)

/-- One of a list of texts. -/
def pick (choices : List String) : Draw g String := do
  return choices.getD (← g.position choices.length) ""

/-- Draw a list, one element for each of the numbers. -/
def drawEach {g : Generator} {α : Type} (draw : Nat → Draw g α) : List Nat → Draw g (List α)
  | [] => return []
  | i :: rest => do
    let a ← draw i
    return a :: (← drawEach draw rest)

end TableEngine.Sampling
