import TableEngine.Proofs.Chains.Placement

/-!
# Bucket arrays are finite maps

Under every list of calls a bucket array answers like a finite map, its size is the
number of keys of that map, its list of keys names each of them once, and every entry
stands alone with its key in the bucket of that key (`run_chains_eq_run_mapping`).

A write, a change in place and a removal edit one bucket. A rebuild appends the
entries, bucket by bucket, to an empty array (`ChainStore.WellBucketed.view_rebuild`),
so it needs no more than the step for one entry (`ChainStore.WellBucketed.append`).
-/

set_option linter.unusedSectionVars false

namespace TableEngine

variable {K V : Type} [DecidableEq K] [StoreKey K]

namespace ChainStore

instance : Keyed (ChainStore K V) K V where
  insert := ChainStore.insert
  get? := ChainStore.get?
  modify := ChainStore.modify
  remove := ChainStore.remove

/-- An array of empty buckets. -/
def blank (K V : Type) (capacity : Nat) : ChainStore K V := ⟨Array.replicate capacity [], 0⟩

theorem getElem?_blank {capacity i : Nat} {chain : List (Entry K V)}
    (h : (blank K V capacity).buckets[i]? = some chain) : chain = [] := by
  rw [blank, Array.getElem?_replicate] at h
  split at h
  · exact (Option.some.inj h).symm
  · cases h

theorem wellBucketed_blank {capacity : Nat} (hpos : 0 < capacity) :
    (blank K V capacity).WellBucketed where
  capacity_pos := by simpa [blank, ChainStore.capacity] using hpos
  size_eq := by simp [blank, total]
  inBucket hi e he := by simp [getElem?_blank hi] at he
  distinct hi := by simp [getElem?_blank hi, DistinctKeys]

theorem view_blank (capacity : Nat) : (blank K V capacity).view = .blank capacity := by
  refine View.ext (funext fun k => ?_) rfl Array.size_replicate
  show lookup ((blank K V capacity).chainOf k) k = none
  have hchain : (blank K V capacity).chainOf k = [] := by
    rw [chainOf, Array.getD_eq_getD_getElem?]
    cases hi : (blank K V capacity).buckets[bucketOf k (blank K V capacity).buckets.size]? with
    | none => rfl
    | some chain => exact getElem?_blank hi
  rw [hchain, lookup_nil]

namespace WellBucketed

variable {s : ChainStore K V} (h : s.WellBucketed) (key : K)
include h

/-! ## Rebuilding -/

/-- An entry of a new key, appended to its bucket. -/
theorem append {e : Entry K V} (hk : s.get? e.key = none) :
    (⟨append s.buckets e, s.size + 1⟩ : ChainStore K V).WellBucketed ∧
      (⟨ChainStore.append s.buckets e, s.size + 1⟩ : ChainStore K V).view =
        s.view.write e.key e.value := by
  have he := edits_append (h.distinct_chainOf e.key) hk
  have hsize : (s.view.write e.key e.value).size = s.size + 1 := by simp [View.write, view, hk]
  refine ⟨h.edit he (by simp only [List.length_append, List.length_singleton]; omega), ?_⟩
  rw [← hsize]
  exact h.view_edit he

omit h in
theorem foldl_append : ∀ {es : List (Entry K V)} {s : ChainStore K V}, s.WellBucketed →
    s.view.Fresh es →
    (⟨es.foldl ChainStore.append s.buckets, s.size + es.length⟩ : ChainStore K V).WellBucketed ∧
      (⟨es.foldl ChainStore.append s.buckets, s.size + es.length⟩ : ChainStore K V).view =
        s.view.refill es
  | [], _, h, _ => ⟨h, rfl⟩
  | e :: es, s, h, hfresh => by
    obtain ⟨hnext, hview⟩ := h.append hfresh.head
    have ih := foldl_append hnext (hview ▸ hfresh.tail)
    rw [hview, show s.size + 1 + es.length = s.size + (e :: es).length by
      rw [List.length_cons]; omega] at ih
    exact ih

/-- A rebuild keeps the invariant and changes the capacity alone. -/
theorem view_rebuild {capacity : Nat} (hpos : 0 < capacity) :
    (s.rebuild capacity).WellBucketed ∧
      (s.rebuild capacity).view = { s.view with capacity := capacity } := by
  have hblank := wellBucketed_blank (K := K) (V := V) hpos
  have hview := view_blank (K := K) (V := V) capacity
  have hfill := foldl_append hblank (hview ▸ h.lists.fresh_blank capacity)
  rw [hview, h.lists.refill_blank] at hfill
  have hlength : (blank K V capacity).size + s.entries.length = s.size :=
    (Nat.zero_add _).trans h.lists.size_eq.symm
  rw [hlength] at hfill
  exact hfill

theorem view_grown : s.grown.WellBucketed ∧ s.grown.view = s.view.grown :=
  View.grown_of_rebuild view h fun _ => h.view_rebuild (Nat.mul_pos h.capacity_pos (by decide))

theorem view_shrunk : s.shrunk.WellBucketed ∧ s.shrunk.view = s.view.shrunk := by
  refine View.shrunk_of_rebuild view h fun hs => ?_
  have hlarge : initialCapacity < s.capacity := (needsShrink_iff.mp hs).2
  simp only [initialCapacity] at hlarge
  exact h.view_rebuild (show 0 < s.capacity / 2 by omega)

/-! ## The operations -/

theorem view_write (value : V) :
    (s.write key value).WellBucketed ∧ (s.write key value).view = s.view.write key value := by
  unfold write
  split
  · next i hi =>
    have he := edits_mapValue (h.distinct_chainOf key) key fun _ => value
    obtain ⟨old, hold⟩ := Option.isSome_iff_exists.mp (isSome_lookup_of_position? hi)
    have hk : s.get? key = some old := hold
    rw [hold] at he
    refine ⟨h.edit he (by rw [mapValue, List.length_map]), (h.view_edit he).trans ?_⟩
    simp [View.write, view, hk]
  · next hi => exact h.append (e := ⟨key, value⟩) (lookup_of_position?_eq_none hi)

theorem view_insert (value : V) : (s.insert key value).WellBucketed ∧
    (s.insert key value).view = s.view.grown.write key value := by
  obtain ⟨hg, hview⟩ := h.view_grown
  rw [← hview]
  exact hg.view_write key value

theorem view_modify (f : V → V) :
    (s.modify key f).WellBucketed ∧ (s.modify key f).view = s.view.modify key f := by
  have he := edits_mapValue (h.distinct_chainOf key) key f
  exact ⟨h.edit he (by rw [mapValue, List.length_map]), h.view_edit he⟩

theorem detach_of_none (hk : s.get? key = none) : s.detach key = (none, s) := by
  unfold detach
  split
  · rfl
  · next i hi =>
    have hnot : lookup (s.chainOf key) key = none := hk
    have := isSome_lookup_of_position? hi
    simp [hnot] at this

/-- A stored key is taken out of its bucket. -/
theorem detach_of_some {value : V} (hk : s.get? key = some value) :
    ∃ t, s.detach key = (some value, t) ∧ t.WellBucketed ∧ t.view = s.view.erase key := by
  unfold detach
  split
  · next hi =>
    have hnot : s.get? key = none := lookup_of_position?_eq_none hi
    rw [hk] at hnot
    cases hnot
  · next i hi =>
    have he := edits_swapRemove (h.distinct_chainOf key) hi
    have hlength := length_swapRemove hi
    have hpos : (s.chainOf key).length ≤ s.size := by
      have := total_modify (h.getElem?_bucketOf key) fun _ => []
      have := h.size_eq
      simp only [List.length_nil] at *
      omega
    rw [hk]
    exact ⟨_, rfl, h.edit he (by omega), h.view_edit he⟩

theorem view_remove : (s.remove key).1 = s.get? key ∧ (s.remove key).2.WellBucketed ∧
    (s.remove key).2.view = (s.view.remove key).2 := by
  have hremove : s.remove key = View.thenShrink shrunk (s.detach key) := by
    unfold remove
    rcases s.detach key with ⟨_ | _, _⟩ <;> rfl
  rw [hremove]
  refine View.remove_of_take view h (h.detach_of_none key) fun value hk => ?_
  obtain ⟨t, ht, hinv, hview⟩ := h.detach_of_some key hk
  rw [← hview]
  exact ⟨t, ht, hinv.view_shrunk⟩

end WellBucketed

theorem viewed : Viewed (WellBucketed (K := K) (V := V)) view where
  get? _ _ := rfl
  insert h _ key value := h.view_insert key value
  modify h key f := h.view_modify key f
  remove h _ key := h.view_remove key

theorem shows_empty : (empty : ChainStore K V).WellBucketed ∧
    (empty : ChainStore K V).view.Shows (∅ : Mapping K V) :=
  ⟨wellBucketed_blank (by decide), view_blank (K := K) (V := V) initialCapacity ▸
    View.shows_empty⟩

end ChainStore

/-- A bucket array answers every list of calls as a finite map does. Afterwards its size is
the number of keys of the map, it lists each of them once and no other, and the array is
well bucketed. -/
theorem run_chains_eq_run_mapping (calls : List (Call K V)) :
    let s := Keyed.run (ChainStore.empty : ChainStore K V) calls
    let m := Keyed.run (∅ : Mapping K V) calls
    s.1 = m.1 ∧ s.2.size = m.2.keys.card ∧ s.2.keys.Nodup ∧ (∀ k, k ∈ s.2.keys ↔ k ∈ m.2) ∧
      s.2.WellBucketed := by
  obtain ⟨hreply, hbucketed, hshows⟩ := ChainStore.viewed.simulation.run calls
    ChainStore.shows_empty
  refine ⟨hreply, hshows.size_eq, hbucketed.nodup_keys, fun k => ?_, hbucketed⟩
  rw [← Finmap.mem_keys]
  exact hbucketed.lists.mem_keys_iff.trans (hshows.isSome_iff k)

end TableEngine
