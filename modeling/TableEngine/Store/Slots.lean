import TableEngine.Store.Key
import TableEngine.Store.Load
import TableEngine.Store.Probe

/-!
# Slot arrays

A slot array holds at most one entry a slot and walks the probe sequence of a key. A removed
entry leaves a tombstone: walks go on past it, and an insertion may use it again. Tombstones
disappear only when the array is rebuilt.

* `SlotStore.find?` walks until it meets the key or an empty slot.
* `SlotStore.place` walks past tombstones to learn whether the key is there, and otherwise
  answers the first slot on the way that holds no entry. It has no answer on an array without
  room, which the load rule of `TableEngine.Store.Load` excludes.
* `plan` assigns a slot of a fresh array to each of a list of hashes, and
  `SlotStore.rebuild` moves the entries there.
-/

namespace TableEngine

/-- The state of one place of the array. -/
inductive Slot (K V : Type)
  /-- Not used since the last rebuild. A walk ends here. -/
  | empty
  | occupied (entry : Entry K V)
  /-- Held an entry that was removed. A walk goes on. -/
  | tombstone
  deriving DecidableEq, Repr

namespace Slot

variable {K V : Type}

def entry? : Slot K V → Option (Entry K V)
  | occupied e => some e
  | _ => none

def isTombstone : Slot K V → Bool
  | tombstone => true
  | _ => false

/-- Replace the value of an occupied slot. -/
def mapValue (f : V → V) : Slot K V → Slot K V
  | occupied e => occupied { e with value := f e.value }
  | s => s

end Slot

/-! ## Planning a rebuild -/

/-- The first slot on the sequence of `hash`, from `attempt` on and within `left` attempts,
that is not taken. -/
def firstFree (p : Probe) (taken : Array Bool) (hash : UInt64) (attempt : Nat) :
    Nat → Option Nat
  | 0 => none
  | left + 1 =>
    let i := p.slot hash attempt taken.size
    if taken.getD i true then firstFree p taken hash (attempt + 1) left else some i

/-- A slot for each hash in turn, avoiding the slots taken before. -/
def planFrom (p : Probe) (taken : Array Bool) : List UInt64 → Option (List Nat)
  | [] => some []
  | hash :: rest =>
    match firstFree p taken hash 0 taken.size with
    | none => none
    | some i => (planFrom p (taken.setIfInBounds i true) rest).map (i :: ·)

/-- A slot for each hash in a fresh array. No answer if the array is too small. -/
def plan (p : Probe) (hashes : List UInt64) (capacity : Nat) : Option (List Nat) :=
  planFrom p (Array.replicate capacity false) hashes

/-! ## The store -/

/-- Entries in a slot array under the probe sequence `p`. -/
structure SlotStore (p : Probe) (K V : Type) where
  slots : Array (Slot K V)
  /-- The number of occupied slots. -/
  size : Nat
  deriving DecidableEq, Repr

/-- Where a key goes. -/
inductive Placement
  /-- The key is in this slot. -/
  | existing (i : Nat)
  /-- The key is absent, and this is the first slot on its sequence without an entry. -/
  | vacant (i : Nat)
  deriving DecidableEq, Repr

namespace SlotStore

variable {p : Probe} {K V : Type}

/-- No entries, at the initial capacity. -/
def empty : SlotStore p K V := ⟨Array.replicate initialCapacity .empty, 0⟩

def capacity (s : SlotStore p K V) : Nat := s.slots.size

/-- The entries in slot order. -/
def entries (s : SlotStore p K V) : List (Entry K V) := s.slots.toList.filterMap Slot.entry?

/-- The keys in slot order. -/
def keys (s : SlotStore p K V) : List K := s.entries.map Entry.key

/-- The number of tombstones. -/
def tombstones (s : SlotStore p K V) : Nat := s.slots.countP Slot.isTombstone

/-- Put the entries into the given slots of an array. -/
def fill (slots : Array (Slot K V)) (entries : List (Entry K V)) (places : List Nat) :
    Array (Slot K V) :=
  (entries.zip places).foldl (fun slots (e, i) => slots.setIfInBounds i (.occupied e)) slots

variable [DecidableEq K] [StoreKey K]

/-- Walk from `attempt` on, for at most `left` attempts, to the slot of the key. -/
def findFrom (p : Probe) (slots : Array (Slot K V)) (key : K) (hash : UInt64) (attempt : Nat) :
    Nat → Option Nat
  | 0 => none
  | left + 1 =>
    let i := p.slot hash attempt slots.size
    match slots[i]? with
    | some (.occupied e) =>
      if e.key = key then some i else findFrom p slots key hash (attempt + 1) left
    | some .tombstone => findFrom p slots key hash (attempt + 1) left
    | some .empty | none => none

/-- The slot of the key. -/
def find? (s : SlotStore p K V) (key : K) : Option Nat :=
  findFrom p s.slots key (StoreKey.hash key) 0 s.slots.size

/-- Walk from `attempt` on, for at most `left` attempts, remembering the first tombstone. -/
def placeFrom (p : Probe) (slots : Array (Slot K V)) (key : K) (hash : UInt64) (attempt : Nat)
    (reusable : Option Nat) : Nat → Option Placement
  | 0 => reusable.map .vacant
  | left + 1 =>
    let i := p.slot hash attempt slots.size
    match slots[i]? with
    | some (.occupied e) =>
      if e.key = key then some (.existing i)
      else placeFrom p slots key hash (attempt + 1) reusable left
    | some .tombstone =>
      placeFrom p slots key hash (attempt + 1) (some (reusable.getD i)) left
    | some .empty => some (.vacant (reusable.getD i))
    | none => none

/-- Where the key is, or where it goes. -/
def place (s : SlotStore p K V) (key : K) : Option Placement :=
  placeFrom p s.slots key (StoreKey.hash key) 0 none s.slots.size

/-- Move the entries, in slot order, into a fresh array. -/
def rebuild (s : SlotStore p K V) (capacity : Nat) : SlotStore p K V :=
  let capacity := max capacity initialCapacity
  let entries := s.entries
  match plan p (entries.map fun e => StoreKey.hash e.key) capacity with
  | some places => { s with slots := fill (Array.replicate capacity .empty) entries places }
  | none => s

/-- Double the array if the load asks for it. -/
def grown (s : SlotStore p K V) : SlotStore p K V :=
  if needsGrow s.size s.slots.size then s.rebuild (s.slots.size * 2) else s

/-- Halve the array if the load asks for it. -/
def shrunk (s : SlotStore p K V) : SlotStore p K V :=
  if needsShrink s.size s.slots.size then s.rebuild (s.slots.size / 2) else s

/-- Write an entry where it belongs, without looking at the load. -/
def write (s : SlotStore p K V) (key : K) (value : V) : SlotStore p K V :=
  match s.place key with
  | some (.existing i) => { s with slots := s.slots.setIfInBounds i (.occupied ⟨key, value⟩) }
  | some (.vacant i) => ⟨s.slots.setIfInBounds i (.occupied ⟨key, value⟩), s.size + 1⟩
  | none => s

/-- Store a value under a key, over any earlier one. -/
def insert (s : SlotStore p K V) (key : K) (value : V) : SlotStore p K V :=
  s.grown.write key value

/-- The value under a key. -/
def get? (s : SlotStore p K V) (key : K) : Option V :=
  match s.find? key with
  | none => none
  | some i => (s.slots[i]?.bind Slot.entry?).map Entry.value

/-- Change the value under a key in place; an absent key changes nothing. -/
def modify (s : SlotStore p K V) (key : K) (f : V → V) : SlotStore p K V :=
  match s.find? key with
  | none => s
  | some i => { s with slots := s.slots.modify i (Slot.mapValue f) }

/-- Remove a key, leaving a tombstone, without looking at the load. -/
def vacate (s : SlotStore p K V) (key : K) : Option V × SlotStore p K V :=
  match s.find? key with
  | none => (none, s)
  | some i =>
    match s.slots[i]? with
    | some (.occupied e) => (some e.value, ⟨s.slots.setIfInBounds i .tombstone, s.size - 1⟩)
    | _ => (none, s)

/-- Remove a key. The answer is the value it had and the store without it. -/
def remove (s : SlotStore p K V) (key : K) : Option V × SlotStore p K V :=
  match s.vacate key with
  | (some value, s) => (some value, s.shrunk)
  | (none, s) => (none, s)

end SlotStore

end TableEngine
