import TableEngine.Hash.Polynomial
import TableEngine.Store.Key
import TableEngine.Store.Load

/-!
# Bucket arrays

A bucket array chains the entries of equal bucket number in a list. The bucket of a key is
its polynomial hash modulo the number of buckets. New entries go to the end of their list,
and the last entry of the list takes the place of a removed one.
-/

namespace TableEngine

/-- Remove the element at `i`; the last element takes its place. -/
def swapRemove {α : Type} (xs : List α) (i : Nat) : List α :=
  match xs.getLast? with
  | none => []
  | some last => (xs.set i last).dropLast

/-- Entries in lists, one for each bucket. -/
structure ChainStore (K V : Type) where
  buckets : Array (List (Entry K V))
  /-- The number of entries. -/
  size : Nat
  deriving DecidableEq, Repr

namespace ChainStore

variable {K V : Type}

/-- No entries, at the initial capacity. -/
def empty : ChainStore K V := ⟨Array.replicate initialCapacity [], 0⟩

def capacity (s : ChainStore K V) : Nat := s.buckets.size

/-- The entries bucket by bucket. -/
def entries (s : ChainStore K V) : List (Entry K V) := s.buckets.toList.flatten

/-- The keys bucket by bucket. -/
def keys (s : ChainStore K V) : List K := s.entries.map Entry.key

/-- The length of the longest bucket. -/
def longest (s : ChainStore K V) : Nat := s.buckets.foldl (fun n chain => max n chain.length) 0

variable [StoreKey K]

/-- The bucket of a key among `capacity` buckets. -/
def bucketOf (key : K) (capacity : Nat) : Nat :=
  (Hash.polynomialHash (StoreKey.text key)).toNat % capacity

/-- Add an entry at the end of its bucket. -/
def append (buckets : Array (List (Entry K V))) (e : Entry K V) : Array (List (Entry K V)) :=
  buckets.modify (bucketOf e.key buckets.size) (· ++ [e])

/-- Move the entries, bucket by bucket, into a fresh array. -/
def rebuild (s : ChainStore K V) (capacity : Nat) : ChainStore K V :=
  { s with buckets := s.entries.foldl append (Array.replicate capacity []) }

/-- Double the array if the load asks for it. -/
def grown (s : ChainStore K V) : ChainStore K V :=
  if needsGrow s.size s.buckets.size then s.rebuild (s.buckets.size * 2) else s

/-- Halve the array if the load asks for it. -/
def shrunk (s : ChainStore K V) : ChainStore K V :=
  if needsShrink s.size s.buckets.size then s.rebuild (s.buckets.size / 2) else s

/-- The bucket of a key with its entries. -/
def chainOf (s : ChainStore K V) (key : K) : List (Entry K V) :=
  s.buckets.getD (bucketOf key s.buckets.size) []

variable [DecidableEq K]

/-- Position of a key in a bucket. -/
def position? (chain : List (Entry K V)) (key : K) : Option Nat :=
  chain.findIdx? fun e => e.key = key

/-- Change the values under a key in a bucket. -/
def mapValue (key : K) (f : V → V) (chain : List (Entry K V)) : List (Entry K V) :=
  chain.map fun e => if e.key = key then { e with value := f e.value } else e

/-- Write an entry where it belongs, without looking at the load. -/
def write (s : ChainStore K V) (key : K) (value : V) : ChainStore K V :=
  let i := bucketOf key s.buckets.size
  match position? (s.chainOf key) key with
  | some _ => { s with buckets := s.buckets.modify i (mapValue key fun _ => value) }
  | none => ⟨s.buckets.modify i (· ++ [⟨key, value⟩]), s.size + 1⟩

/-- Store a value under a key, over any earlier one. -/
def insert (s : ChainStore K V) (key : K) (value : V) : ChainStore K V :=
  s.grown.write key value

/-- The value under a key. -/
def get? (s : ChainStore K V) (key : K) : Option V :=
  ((s.chainOf key).find? fun e => e.key = key).map Entry.value

/-- Change the value under a key in place; an absent key changes nothing. -/
def modify (s : ChainStore K V) (key : K) (f : V → V) : ChainStore K V :=
  { s with buckets := s.buckets.modify (bucketOf key s.buckets.size) (mapValue key f) }

/-- Remove a key without looking at the load. -/
def detach (s : ChainStore K V) (key : K) : Option V × ChainStore K V :=
  match position? (s.chainOf key) key with
  | none => (none, s)
  | some i =>
    (s.get? key,
      ⟨s.buckets.modify (bucketOf key s.buckets.size) (swapRemove · i), s.size - 1⟩)

/-- Remove a key. The answer is the value it had and the store without it. -/
def remove (s : ChainStore K V) (key : K) : Option V × ChainStore K V :=
  match s.detach key with
  | (some value, s) => (some value, s.shrunk)
  | (none, s) => (none, s)

end ChainStore

end TableEngine
