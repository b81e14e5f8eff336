/-!
# Probe sequences

A slot array examines, for a key hashing to `hash`, the slots `slot hash 0`, `slot hash 1`
and so on. There are three sequences: consecutive slots, triangular offsets 0, 1, 3, 6, …,
and multiples of an odd step taken from the high half of the hash. Capacities are powers of
two, on which each of them visits every slot once within `capacity` attempts.
-/

namespace TableEngine

/-- The order in which the slots of an array are examined for a key. -/
inductive Probe
  | linear
  | quadratic
  | double
  deriving DecidableEq, Repr

namespace Probe

/-- The step of double hashing: an odd number, hence coprime to the capacity. -/
def step (hash : UInt64) (capacity : Nat) : Nat :=
  (hash >>> 32).toNat % capacity ||| 1

/-- Distance from the first slot on the given attempt. -/
def offset (p : Probe) (hash : UInt64) (attempt capacity : Nat) : Nat :=
  match p with
  | linear => attempt
  | quadratic => attempt * (attempt + 1) / 2
  | double => attempt * step hash capacity

/-- Slot examined on the given attempt, counted from 0. -/
def slot (p : Probe) (hash : UInt64) (attempt capacity : Nat) : Nat :=
  (hash.toNat % capacity + p.offset hash attempt capacity) % capacity

theorem slot_lt (p : Probe) (hash : UInt64) (attempt : Nat) {capacity : Nat}
    (h : 0 < capacity) : p.slot hash attempt capacity < capacity :=
  Nat.mod_lt _ h

end Probe

end TableEngine
