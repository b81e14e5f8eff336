import TableEngine.Proofs.Chains.Bucket
import TableEngine.Proofs.Store.Refill
import Mathlib.Algebra.BigOperators.Group.List.Basic
import Mathlib.Data.List.Flatten

/-!
# Where the entries of a bucket array stand

`WellBucketed` is the invariant of the bucket arrays : every entry stands in the
bucket of its key, no key stands twice in a bucket, and the size is the sum of the
lengths of the buckets. On such an array a look-up reads the list of all entries
(`WellBucketed.mem_entries_iff`), in which every key stands once
(`WellBucketed.nodup_keys`).

Every operation but the rebuild edits the bucket of its key (`WellBucketed.edit`).
-/

set_option linter.unusedSectionVars false

namespace TableEngine.ChainStore

variable {K V : Type} [DecidableEq K] [StoreKey K]

/-- The sum of the lengths of the buckets. -/
def total (buckets : Array (List (Entry K V))) : Nat := (buckets.toList.map List.length).sum

/-- What can be seen of the array apart from the order of its entries. -/
def view (s : ChainStore K V) : View K V := ⟨s.get?, s.size, s.capacity⟩

/-- The invariant of a bucket array. -/
structure WellBucketed (s : ChainStore K V) : Prop where
  /-- There is a bucket for every key. -/
  capacity_pos : 0 < s.capacity
  size_eq : s.size = total s.buckets
  /-- An entry stands in the bucket of its key. -/
  inBucket : ∀ {i : Nat} {chain : List (Entry K V)}, s.buckets[i]? = some chain →
    ∀ e ∈ chain, bucketOf e.key s.capacity = i
  /-- No key stands twice in a bucket. -/
  distinct : ∀ {i : Nat} {chain : List (Entry K V)}, s.buckets[i]? = some chain →
    DistinctKeys chain

variable {s : ChainStore K V} {key k : K} {chain : List (Entry K V)} {i n : Nat}

/-- A changed bucket changes the sum by the difference of the lengths. -/
theorem total_modify {buckets : Array (List (Entry K V))} (h : buckets[i]? = some chain)
    (f : List (Entry K V) → List (Entry K V)) :
    total (buckets.modify i f) + chain.length = total buckets + (f chain).length := by
  obtain ⟨hi, rfl⟩ := Array.getElem?_eq_some_iff.mp h
  have hi' : i < buckets.toList.length := by simpa using hi
  have hsplit : total buckets =
      ((buckets.toList.take i ++ buckets.toList[i] :: buckets.toList.drop (i + 1)).map
        List.length).sum := by
    rw [List.getElem_cons_drop, List.take_append_drop, total]
  rw [hsplit, total, Array.toList_modify, List.modify_eq_take_cons_drop hi']
  simp only [List.map_append, List.map_cons, List.sum_append, List.sum_cons, Array.getElem_toList]
  omega

namespace WellBucketed

theorem bucketOf_lt (h : s.WellBucketed) (key : K) : bucketOf key s.capacity < s.capacity :=
  Nat.mod_lt _ h.capacity_pos

theorem getElem?_bucketOf (h : s.WellBucketed) (key : K) :
    s.buckets[bucketOf key s.capacity]? = some (s.chainOf key) := by
  have hlt := h.bucketOf_lt key
  have hget : s.buckets[bucketOf key s.capacity]? = some _ := Array.getElem?_eq_getElem hlt
  rw [chainOf, Array.getD_eq_getD_getElem?]
  exact hget.trans (congrArg some (by rw [show s.buckets.size = s.capacity from rfl, hget]; rfl))

theorem distinct_chainOf (h : s.WellBucketed) (key : K) : DistinctKeys (s.chainOf key) :=
  h.distinct (h.getElem?_bucketOf key)

/-! ## The entries bucket by bucket -/

theorem mem_entries_iff (h : s.WellBucketed) {v : V} :
    ⟨k, v⟩ ∈ s.entries ↔ s.get? k = some v := by
  have hget : s.get? k = some v ↔ ⟨k, v⟩ ∈ s.chainOf k := lookup_eq_some_iff (h.distinct_chainOf k)
  rw [hget, entries, List.mem_flatten]
  constructor
  · rintro ⟨chain, hchain, hmem⟩
    obtain ⟨i, hi⟩ := Array.mem_iff_getElem?.mp (Array.mem_toList_iff.mp hchain)
    have hbucket := h.inBucket hi _ hmem
    rw [← hbucket, h.getElem?_bucketOf k] at hi
    exact Option.some.inj hi ▸ hmem
  · intro hmem
    refine ⟨s.chainOf k, ?_, hmem⟩
    exact Array.mem_toList_iff.mpr (Array.mem_of_getElem? (h.getElem?_bucketOf k))

theorem nodup_keys (h : s.WellBucketed) : s.keys.Nodup := by
  rw [keys, entries, List.map_flatten, List.nodup_flatten]
  constructor
  · intro keys hkeys
    obtain ⟨chain, hchain, rfl⟩ := List.mem_map.mp hkeys
    obtain ⟨i, hi⟩ := Array.mem_iff_getElem?.mp (Array.mem_toList_iff.mp hchain)
    exact h.distinct hi
  · rw [List.pairwise_map, List.pairwise_iff_getElem]
    intro i j hi hj hij k hki hkj
    -- a key in two buckets would have two bucket numbers
    obtain ⟨e, he, rfl⟩ := List.mem_map.mp hki
    obtain ⟨e', he', hk⟩ := List.mem_map.mp hkj
    have hbi := h.inBucket (Array.getElem?_eq_getElem (by simpa using hi)) e (by simpa using he)
    have hbj := h.inBucket (Array.getElem?_eq_getElem (by simpa using hj)) e' (by simpa using he')
    rw [hk, hbi] at hbj
    omega

/-- The list of all entries names each of them once. -/
theorem lists (h : s.WellBucketed) : s.view.Lists s.entries where
  nodup := h.nodup_keys
  mem_iff := h.mem_entries_iff
  size_eq := by
    show s.size = s.entries.length
    rw [h.size_eq, entries, List.length_flatten, total]

/-! ## Editing one bucket -/

variable {f : List (Entry K V) → List (Entry K V)} {r : Option V}

theorem getElem?_edited {j : Nat} {chain' : List (Entry K V)} (h : s.WellBucketed)
    (hj : (s.buckets.modify (bucketOf key s.capacity) f)[j]? = some chain') :
    (j = bucketOf key s.capacity ∧ chain' = f (s.chainOf key)) ∨
      (j ≠ bucketOf key s.capacity ∧ s.buckets[j]? = some chain') := by
  rw [Array.getElem?_modify] at hj
  split at hj
  · next hij =>
    rw [← hij, h.getElem?_bucketOf key] at hj
    exact Or.inl ⟨hij.symm, (Option.some.inj hj).symm⟩
  · next hij => exact Or.inr ⟨Ne.symm hij, hj⟩

/-- An edit of the bucket of a key keeps the invariant if the size follows the length of
the bucket. -/
theorem edit (h : s.WellBucketed) (he : Edits (s.chainOf key) (f (s.chainOf key)) key r)
    (hn : n + (s.chainOf key).length = s.size + (f (s.chainOf key)).length) :
    (⟨s.buckets.modify (bucketOf key s.capacity) f, n⟩ : ChainStore K V).WellBucketed where
  capacity_pos := by
    simpa [capacity] using h.capacity_pos
  size_eq := by
    have := total_modify (h.getElem?_bucketOf key) f
    have := h.size_eq
    show n = total (s.buckets.modify (bucketOf key s.capacity) f)
    omega
  inBucket := by
    intro j chain' hj e hmem
    rw [show capacity (⟨s.buckets.modify _ f, n⟩ : ChainStore K V) = s.capacity from
      Array.size_modify]
    -- an edit brings no key into the bucket but its own
    rcases h.getElem?_edited hj with ⟨rfl, rfl⟩ | ⟨-, hj⟩
    · rcases he.mem_keys hmem with hk | hk
      · rw [hk]
      · obtain ⟨e', he', hk⟩ := List.mem_map.mp hk
        rw [← hk]
        exact h.inBucket (h.getElem?_bucketOf key) e' he'
    · exact h.inBucket hj e hmem
  distinct := by
    intro j chain' hj
    rcases h.getElem?_edited hj with ⟨rfl, rfl⟩ | ⟨-, hj⟩
    · exact he.distinct
    · exact h.distinct hj

/-- Only the keys of the edited bucket find another one. -/
theorem chainOf_edited (h : s.WellBucketed) (key k : K) :
    (⟨s.buckets.modify (bucketOf key s.capacity) f, n⟩ : ChainStore K V).chainOf k =
      if bucketOf key s.capacity = bucketOf k s.capacity then f (s.chainOf key)
      else s.chainOf k := by
  simp only [chainOf, Array.size_modify, Array.getD_eq_getD_getElem?, Array.getElem?_modify]
  rw [show s.buckets.size = s.capacity from rfl]
  split
  · next hb => rw [← hb, h.getElem?_bucketOf key]; rfl
  · rfl

/-- After an edit of the bucket of a key, the key is found as in the edited bucket, and
every other key as before. -/
theorem get?_edit (h : s.WellBucketed) (he : Edits (s.chainOf key) (f (s.chainOf key)) key r)
    (k : K) : (⟨s.buckets.modify (bucketOf key s.capacity) f, n⟩ : ChainStore K V).get? k =
      if k = key then r else s.get? k := by
  have hlook : ∀ (t : ChainStore K V) (k : K), t.get? k = lookup (t.chainOf k) k := fun _ _ => rfl
  rw [hlook, h.chainOf_edited, hlook]
  split
  · next hb =>
    have hsame : s.chainOf k = s.chainOf key := by
      have := h.getElem?_bucketOf k
      rw [← hb, h.getElem?_bucketOf key] at this
      exact (Option.some.inj this).symm
    rw [he.lookup_eq, hsame]
  · next hb =>
    have hne : k ≠ key := by
      rintro rfl
      exact hb rfl
    rw [if_neg hne]

theorem view_edit (h : s.WellBucketed) (he : Edits (s.chainOf key) (f (s.chainOf key)) key r) :
    (⟨s.buckets.modify (bucketOf key s.capacity) f, n⟩ : ChainStore K V).view =
      ⟨fun k => if k = key then r else s.get? k, n, s.capacity⟩ :=
  View.ext (funext fun k => h.get?_edit he k) rfl Array.size_modify

end WellBucketed

end TableEngine.ChainStore
