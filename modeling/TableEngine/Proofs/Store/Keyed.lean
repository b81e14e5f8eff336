import TableEngine.Store.Basic
import Mathlib.Data.Finmap

/-!
# Calls of a keyed store

Every store inserts, looks up, changes in place and removes by key (`Keyed`). A
`Call` is one use of a store, and `Keyed.run` makes a list of calls one after
another and collects what each of them answers.

The stores are compared with `Mapping`, the finite maps of Mathlib, under the same
calls. `Simulation` is a relation that every operation keeps and under which lookups
and removals answer alike; calls then answer alike for ever (`Simulation.run`).
-/

namespace TableEngine

/-- The operations of a keyed store. -/
class Keyed (S : Type) (K V : outParam Type) where
  /-- Store a value under a key, over any earlier one. -/
  insert : S → K → V → S
  /-- The value under a key. -/
  get? : S → K → Option V
  /-- Change the value under a key in place. -/
  modify : S → K → (V → V) → S
  /-- The value under a key, and the store without it. -/
  remove : S → K → Option V × S

/-- One use of a store. A change in place answers the value it finds. -/
inductive Call (K V : Type)
  | insert (key : K) (value : V)
  | get (key : K)
  | modify (key : K) (f : V → V)
  | contains (key : K)
  | remove (key : K)

/-- What a call answers. -/
inductive Reply (V : Type)
  | done
  | value (found : Option V)
  | present (b : Bool)
  deriving DecidableEq

namespace Keyed

variable {S K V : Type} [Keyed S K V]

/-- The answer to a call and the store after it. -/
def apply (s : S) : Call K V → Reply V × S
  | .insert key value => (.done, insert s key value)
  | .get key => (.value (get? s key), s)
  | .modify key f => (.value (get? s key), modify s key f)
  | .contains key => (.present (get? s key).isSome, s)
  | .remove key => (.value (remove s key).1, (remove s key).2)

/-- The answers to the calls, one after another, and the store after the last. -/
def run (s : S) : List (Call K V) → List (Reply V) × S
  | [] => ([], s)
  | c :: calls => ((apply s c).1 :: (run (apply s c).2 calls).1, (run (apply s c).2 calls).2)

end Keyed

/-! ## Simulation -/

/-- A relation between two stores that every operation keeps, and under which lookups
and removals answer alike. -/
structure Simulation {S T K V : Type} [Keyed S K V] [Keyed T K V] (R : S → T → Prop) : Prop where
  get? : ∀ {s t}, R s t → ∀ k, Keyed.get? s k = Keyed.get? t k
  insert : ∀ {s t}, R s t → ∀ k v, R (Keyed.insert s k v) (Keyed.insert t k v)
  modify : ∀ {s t}, R s t → ∀ k f, R (Keyed.modify s k f) (Keyed.modify t k f)
  removed : ∀ {s t}, R s t → ∀ k, (Keyed.remove s k).1 = (Keyed.remove t k).1
  remove : ∀ {s t}, R s t → ∀ k, R (Keyed.remove s k).2 (Keyed.remove t k).2

namespace Simulation

variable {S T K V : Type} [Keyed S K V] [Keyed T K V] {R : S → T → Prop}

theorem apply (sim : Simulation R) {s : S} {t : T} (h : R s t) (c : Call K V) :
    (Keyed.apply s c).1 = (Keyed.apply t c).1 ∧ R (Keyed.apply s c).2 (Keyed.apply t c).2 := by
  cases c with
  | insert key value => exact ⟨rfl, sim.insert h key value⟩
  | get key => exact ⟨congrArg Reply.value (sim.get? h key), h⟩
  | modify key f => exact ⟨congrArg Reply.value (sim.get? h key), sim.modify h key f⟩
  | contains key => exact ⟨by simp [Keyed.apply, sim.get? h key], h⟩
  | remove key => exact ⟨congrArg Reply.value (sim.removed h key), sim.remove h key⟩

/-- Related stores answer every list of calls alike and end up related. -/
theorem run (sim : Simulation R) : ∀ {s : S} {t : T} (calls : List (Call K V)), R s t →
    (Keyed.run s calls).1 = (Keyed.run t calls).1 ∧ R (Keyed.run s calls).2 (Keyed.run t calls).2
  | _, _, [], h => ⟨rfl, h⟩
  | _, _, c :: calls, h => by
    obtain ⟨hr, hc⟩ := sim.apply h c
    obtain ⟨hrs, hcs⟩ := sim.run calls hc
    exact ⟨by rw [Keyed.run, Keyed.run, hr, hrs], hcs⟩

end Simulation

/-! ## Finite maps -/

/-- A finite map from keys to values. -/
abbrev Mapping (K V : Type) := Finmap fun _ : K => V

namespace Mapping

variable {K V : Type} [DecidableEq K] (m : Mapping K V) (key : K)

/-- Change the value under a key; an absent key changes nothing. -/
def modify (f : V → V) : Mapping K V :=
  match m.lookup key with
  | some value => m.insert key (f value)
  | none => m

instance : Keyed (Mapping K V) K V where
  insert m key value := Finmap.insert key value m
  get? m key := m.lookup key
  modify := modify
  remove m key := (m.lookup key, m.erase key)

theorem lookup_insert_eq (value : V) (k : K) :
    Finmap.lookup k (Finmap.insert key value m) = if k = key then some value else m.lookup k := by
  split
  · next h => rw [h, Finmap.lookup_insert]
  · next h => rw [Finmap.lookup_insert_of_ne _ h]

theorem lookup_erase_eq (k : K) :
    Finmap.lookup k (Finmap.erase key m) = if k = key then none else m.lookup k := by
  split
  · next h => rw [h, Finmap.lookup_erase]
  · next h => rw [Finmap.lookup_erase_ne h]

theorem lookup_modify (f : V → V) (k : K) :
    (modify m key f).lookup k = if k = key then (m.lookup key).map f else m.lookup k := by
  cases h : m.lookup key with
  | some value => simp only [modify, h, lookup_insert_eq, Option.map_some]
  | none =>
    simp only [modify, h, Option.map_none]
    split
    · next he => rw [he, h]
    · rfl

theorem keys_modify (f : V → V) : (modify m key f).keys = m.keys := by
  ext k
  rw [Finmap.mem_keys, Finmap.mem_keys, ← Finmap.lookup_isSome, ← Finmap.lookup_isSome,
    lookup_modify]
  split
  · next h => rw [h, Option.isSome_map]
  · rfl

end Mapping

end TableEngine
