import TableEngine.Proofs.Checked.Word
import TableEngine.Proofs.Chains.FiniteMap

/-!
# Bucket arrays with checks

The operations of a bucket array, with every access to the array and to a bucket and every
number checked. The bucket of a key is a remainder modulo the number of buckets, so it is
one of them as long as there are any. What is left are the numbers of the load rule, and the
position of a removed entry, which `ChainStore.position?` found in its bucket.

On a well bucketed array within the bounds of its load, of at most `2 ^ 32` buckets, each
operation ends with what the unchecked operation does (`checkedInsert_eq`,
`checkedGet?_eq`, `checkedModify_eq`, `checkedRemove_eq`).
-/

set_option linter.unusedSectionVars false

namespace TableEngine.ChainStore

open Checked

variable {K V : Type} [StoreKey K]

/-! ## Rebuilding -/

/-- `bucketOf`, with checks. -/
def checkedBucketOf (key : K) (capacity : Nat) : Checked Nat := do
  mod (← Hash.checkedHash (StoreKey.text key)) capacity

/-- `append`, with checks. -/
def checkedAppend (buckets : Array (List (Entry K V))) (e : Entry K V) :
    Checked (Array (List (Entry K V))) := do
  change buckets (← checkedBucketOf e.key buckets.size) (· ++ [e])

/-- `rebuild`, with checks. -/
def checkedRebuild (s : ChainStore K V) (capacity : Nat) : Checked (ChainStore K V) := do
  let buckets ← s.entries.foldlM checkedAppend (Array.replicate capacity [])
  .ok { s with buckets }

/-- `grown`, with checks. -/
def checkedGrown (s : ChainStore K V) : Checked (ChainStore K V) :=
  growing s.size s.buckets.size s s.checkedRebuild

/-- `shrunk`, with checks. -/
def checkedShrunk (s : ChainStore K V) : Checked (ChainStore K V) :=
  shrinking s.size s.buckets.size s s.checkedRebuild

variable {s : ChainStore K V} {capacity : Nat}

theorem checkedBucketOf_eq (hpos : 0 < capacity) (key : K) :
    checkedBucketOf key capacity = .ok (bucketOf key capacity) := by
  rw [checkedBucketOf, Hash.checkedHash_eq, bind_ok, mod_eq hpos]
  rfl

/-- Wherever there are buckets, entries can be appended. -/
theorem foldlM_checkedAppend : ∀ (entries : List (Entry K V))
    (buckets : Array (List (Entry K V))), 0 < buckets.size →
    entries.foldlM checkedAppend buckets = .ok (entries.foldl append buckets)
  | [], _, _ => rfl
  | e :: entries, buckets, hpos => by
    have hlt : bucketOf e.key buckets.size < buckets.size := Nat.mod_lt _ hpos
    rw [List.foldlM_cons, checkedAppend, checkedBucketOf_eq hpos, bind_ok, change_eq hlt, bind_ok]
    exact foldlM_checkedAppend entries _ (by rwa [Array.size_modify])

theorem checkedRebuild_eq (hpos : 0 < capacity) :
    s.checkedRebuild capacity = .ok (s.rebuild capacity) := by
  rw [checkedRebuild, foldlM_checkedAppend _ _ (by rwa [Array.size_replicate]), bind_ok, rebuild]

theorem checkedGrown_eq (hload : WithinLoad s.size s.capacity) (hcap : s.capacity ≤ 2 ^ 32) :
    s.checkedGrown = .ok s.grown := by
  have hinitial := hload.initial_le
  have hpos : 0 < s.buckets.size * 2 := by
    simp only [initialCapacity, capacity] at hinitial
    omega
  exact growing_eq hload.atMost hcap fun _ => checkedRebuild_eq hpos

theorem checkedShrunk_eq (hle : s.size ≤ s.capacity) (hcap : s.capacity ≤ 2 ^ 32) :
    s.checkedShrunk = .ok s.shrunk := by
  refine shrinking_eq hle hcap fun hs => checkedRebuild_eq ?_
  have hlarge := (needsShrink_iff.mp hs).2
  simp only [initialCapacity] at hlarge
  omega

/-! ## Operations -/

variable [DecidableEq K]

/-- `write`, with checks. -/
def checkedWrite (s : ChainStore K V) (key : K) (value : V) : Checked (ChainStore K V) := do
  let i ← checkedBucketOf key s.buckets.size
  match position? (← read s.buckets i) key with
  | some _ => .ok { s with buckets := ← change s.buckets i (mapValue key fun _ => value) }
  | none =>
    let buckets ← change s.buckets i (· ++ [⟨key, value⟩])
    .ok ⟨buckets, ← word (s.size + 1)⟩

/-- `insert`, with checks. -/
def checkedInsert (s : ChainStore K V) (key : K) (value : V) : Checked (ChainStore K V) := do
  (← s.checkedGrown).checkedWrite key value

/-- `get?`, with checks. -/
def checkedGet? (s : ChainStore K V) (key : K) : Checked (Option V) := do
  let chain ← read s.buckets (← checkedBucketOf key s.buckets.size)
  .ok ((chain.find? fun e => e.key = key).map Entry.value)

/-- `modify`, with checks. -/
def checkedModify (s : ChainStore K V) (key : K) (f : V → V) : Checked (ChainStore K V) := do
  let i ← checkedBucketOf key s.buckets.size
  .ok { s with buckets := ← change s.buckets i (mapValue key f) }

/-- `remove`, with checks. -/
def checkedRemove (s : ChainStore K V) (key : K) : Checked (Option V × ChainStore K V) := do
  let i ← checkedBucketOf key s.buckets.size
  let chain ← read s.buckets i
  match position? chain key with
  | none => .ok (none, s)
  | some j =>
    let e ← found chain[j]? .outOfBounds
    let buckets ← change s.buckets i (swapRemove · j)
    let size ← sub s.size 1
    .ok (some e.value, ← checkedShrunk ⟨buckets, size⟩)

/-- The entry at the position of a key is the one that a look-up finds. -/
theorem lookup_of_position? {chain : List (Entry K V)} {key : K} {j : Nat}
    (h : DistinctKeys chain) (hj : position? chain key = some j) :
    ∃ e, chain[j]? = some e ∧ lookup chain key = some e.value := by
  obtain ⟨hlt, hk, -⟩ := List.findIdx?_eq_some_iff_getElem.mp hj
  obtain rfl : chain[j].key = key := by simpa using hk
  exact ⟨_, List.getElem?_eq_getElem hlt, (lookup_eq_some_iff h).mpr (List.getElem_mem hlt)⟩

namespace WellBucketed

variable (h : s.WellBucketed) (key : K)
include h

/-! ### The bucket of a key -/

theorem checkedBucketOf_size : checkedBucketOf key s.buckets.size =
    .ok (bucketOf key s.buckets.size) :=
  checkedBucketOf_eq h.capacity_pos key

theorem read_bucketOf : read s.buckets (bucketOf key s.buckets.size) = .ok (s.chainOf key) :=
  read_eq (h.getElem?_bucketOf key)

theorem change_bucketOf (f : List (Entry K V) → List (Entry K V)) :
    change s.buckets (bucketOf key s.buckets.size) f =
      .ok (s.buckets.modify (bucketOf key s.buckets.size) f) :=
  change_eq (h.bucketOf_lt key) f

theorem size_pos {v : V} (hv : s.get? key = some v) : 0 < s.size :=
  lt_of_lt_of_eq (List.length_pos_of_mem (h.mem_entries_iff.mpr hv)) h.lists.size_eq.symm

/-! ### The operations -/

theorem checkedGet?_eq : s.checkedGet? key = .ok (s.get? key) := by
  rw [checkedGet?, h.checkedBucketOf_size, bind_ok, h.read_bucketOf, bind_ok, ChainStore.get?]

theorem checkedModify_eq (f : V → V) : s.checkedModify key f = .ok (s.modify key f) := by
  rw [checkedModify, h.checkedBucketOf_size, bind_ok, h.change_bucketOf, bind_ok,
    ChainStore.modify]

theorem checkedWrite_eq (hsize : s.size + 1 < 2 ^ 64) (value : V) :
    s.checkedWrite key value = .ok (s.write key value) := by
  simp only [checkedWrite, ChainStore.write, h.checkedBucketOf_size, bind_ok, h.read_bucketOf]
  cases position? (s.chainOf key) key with
  | some j => simp only [h.change_bucketOf, bind_ok]
  | none => simp only [h.change_bucketOf, bind_ok, word_eq hsize]

section Load

variable (hload : WithinLoad s.size s.capacity) (hcap : s.capacity ≤ 2 ^ 32)
include hload hcap

theorem checkedInsert_eq (value : V) : s.checkedInsert key value = .ok (s.insert key value) := by
  obtain ⟨hbucketed, hview⟩ := h.view_grown
  have hsize : s.grown.size = s.size := congrArg View.size hview
  have hle := hload.atMost
  rw [checkedInsert, checkedGrown_eq hload hcap, bind_ok]
  exact hbucketed.checkedWrite_eq key (by omega) value

/-- The position of a key is one of its bucket, so a removal goes through. -/
theorem checkedRemove_eq : s.checkedRemove key = .ok (s.remove key) := by
  have hle := hload.atMost
  simp only [checkedRemove, ChainStore.remove, detach, h.checkedBucketOf_size, bind_ok,
    h.read_bucketOf]
  cases hj : position? (s.chainOf key) key with
  | none => rfl
  | some j =>
    obtain ⟨e, he, hlookup⟩ := lookup_of_position? (h.distinct_chainOf key) hj
    have hget : s.get? key = some e.value := hlookup
    have hcapacity : (⟨s.buckets.modify (bucketOf key s.buckets.size) (swapRemove · j),
        s.size - 1⟩ : ChainStore K V).capacity = s.capacity := Array.size_modify
    have hshrunk := checkedShrunk_eq (by rw [hcapacity]; show s.size - 1 ≤ s.capacity; omega)
      (hcapacity ▸ hcap)
    simp only [he, found, bind_ok, h.change_bucketOf, sub_eq (h.size_pos key hget), hshrunk, hget]

end Load

end WellBucketed

end TableEngine.ChainStore
