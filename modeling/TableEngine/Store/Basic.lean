import TableEngine.Store.Chains
import TableEngine.Store.Slots
import TableEngine.Store.Strategy

/-!
# Stores

A store maps keys to values by one of the strategies, chosen when it is made. Its operations
never fail: to look up or remove an absent key changes nothing and answers `none`. Keys are
listed in the order of the backing array.
-/

namespace TableEngine

/-- Entries kept by one of the strategies. -/
inductive Store (K V : Type)
  | chained (s : ChainStore K V)
  | slotted (p : Probe) (s : SlotStore p K V)
  deriving DecidableEq, Repr

namespace Store

variable {K V : Type}

/-- A store without entries. -/
def empty : Strategy → Store K V
  | .chaining => chained .empty
  | .probing p => slotted p .empty

def strategy : Store K V → Strategy
  | chained _ => .chaining
  | slotted p _ => .probing p

/-- The number of entries. -/
def size : Store K V → Nat
  | chained s => s.size
  | slotted _ s => s.size

/-- The number of places of the backing array. -/
def capacity : Store K V → Nat
  | chained s => s.capacity
  | slotted _ s => s.capacity

def isEmpty (s : Store K V) : Bool := s.size == 0

/-- The keys in the order of the backing array. -/
def keys : Store K V → List K
  | chained s => s.keys
  | slotted _ s => s.keys

variable [DecidableEq K] [StoreKey K]

/-- Store a value under a key, over any earlier one. -/
def insert (s : Store K V) (key : K) (value : V) : Store K V :=
  match s with
  | chained s => chained (s.insert key value)
  | slotted p s => slotted p (s.insert key value)

/-- The value under a key. -/
def get? (s : Store K V) (key : K) : Option V :=
  match s with
  | chained s => s.get? key
  | slotted _ s => s.get? key

def contains (s : Store K V) (key : K) : Bool := (s.get? key).isSome

/-- Change the value under a key in place; an absent key changes nothing. -/
def modify (s : Store K V) (key : K) (f : V → V) : Store K V :=
  match s with
  | chained s => chained (s.modify key f)
  | slotted p s => slotted p (s.modify key f)

/-- Remove a key. The answer is the value it had and the store without it. -/
def remove (s : Store K V) (key : K) : Option V × Store K V :=
  match s with
  | chained s =>
    match s.remove key with
    | (value, s) => (value, chained s)
  | slotted p s =>
    match s.remove key with
    | (value, s) => (value, slotted p s)

end Store

end TableEngine
