import TableEngine.Proofs.Store.Capacity

/-!
# A new key, inserted and removed again

To remove the key that was inserted last takes the insertion back (`Store.remove_insert_run`). The
removal finds the very place that the insertion took : the end of the bucket, which nothing has to
be swapped into (`ChainStore.WellBucketed.detach_write`), or the first slot on the way without an
entry, where a tombstone is left (`SlotStore.WellPlaced.vacate_write`). Such a slot is not listed,
so the other keys keep their order.

An insertion that doubles the array is taken back too, but for the capacity. The removal does not
halve the array again, since the size and the new capacity are within the bounds of the load.
-/

set_option linter.unusedSectionVars false

namespace TableEngine

variable {K V : Type} [DecidableEq K] [StoreKey K]

/-! ## Buckets -/

namespace ChainStore

theorem swapRemove_concat {α : Type} (xs : List α) (x : α) :
    swapRemove (xs ++ [x]) xs.length = xs := by
  simp [swapRemove]

theorem position?_eq_none {chain : List (Entry K V)} {key : K} (h : lookup chain key = none) :
    position? chain key = none := by
  rw [Option.eq_none_iff_forall_ne_some]
  intro i hi
  have hfound := isSome_lookup_of_position? hi
  rw [h] at hfound
  cases hfound

theorem position?_concat {chain : List (Entry K V)} {e : Entry K V}
    (h : lookup chain e.key = none) : position? (chain ++ [e]) e.key = some chain.length := by
  have hnone : chain.findIdx? (fun e' => e'.key = e.key) = none := position?_eq_none h
  rw [position?, List.findIdx?_append, hnone]
  simp

/-- Two changes of a bucket that leave it as it was leave the array as it was. -/
theorem modify_modify_of_eq {buckets : Array (List (Entry K V))} {i : Nat}
    {chain : List (Entry K V)} (hi : buckets[i]? = some chain)
    {f g : List (Entry K V) → List (Entry K V)} (h : g (f chain) = chain) :
    (buckets.modify i f).modify i g = buckets := by
  refine Array.ext_getElem? fun j => ?_
  rw [Array.getElem?_modify, Array.getElem?_modify]
  split
  · next hij =>
    rw [← hij, hi]
    exact congrArg some h
  · rfl

/-- A new entry goes to the end of its bucket and is taken from there. -/
theorem WellBucketed.detach_write {s : ChainStore K V} (h : s.WellBucketed) {key : K}
    (hk : s.get? key = none) (value : V) : (s.write key value).detach key = (some value, s) := by
  let e : Entry K V := ⟨key, value⟩
  have hnew : position? (s.chainOf key) key = none := position?_eq_none hk
  have hwrite : s.write key value =
      ⟨s.buckets.modify (bucketOf key s.capacity) (· ++ [e]), s.size + 1⟩ := by
    simp only [write, hnew]
    rfl
  have hchain : (s.write key value).chainOf key = s.chainOf key ++ [e] := by
    rw [hwrite, h.chainOf_edited, if_pos rfl]
  have hget : (s.write key value).get? key = some value := by
    have hview := congrArg View.get? (h.view_write key value).2
    exact (congrFun hview key).trans (if_pos rfl)
  have hbucket : bucketOf key (s.write key value).buckets.size = bucketOf key s.capacity := by
    rw [hwrite, Array.size_modify, capacity]
  have hbuckets : (s.write key value).buckets.modify (bucketOf key s.capacity)
      (swapRemove · (s.chainOf key).length) = s.buckets := by
    rw [hwrite]
    exact modify_modify_of_eq (f := (· ++ [e])) (h.getElem?_bucketOf key) (swapRemove_concat _ e)
  have hsize : (s.write key value).size - 1 = s.size := by
    rw [hwrite]
    exact Nat.add_sub_cancel _ _
  have hposition : position? (s.chainOf key ++ [e]) key = some (s.chainOf key).length :=
    position?_concat hk
  rw [detach, hchain, hposition]
  simp only
  rw [hget, hbucket, hbuckets, hsize]

/-- The array is as it was before, bucket for bucket, if the insertion does not grow it. -/
theorem WellBucketed.remove_insert {s : ChainStore K V} (h : s.WellBucketed)
    (hload : WithinLoad s.size s.capacity) (hg : ¬needsGrow s.size s.capacity = true) {key : K}
    (hk : s.get? key = none) (value : V) : (s.insert key value).remove key = (some value, s) := by
  have hgrown : s.grown = s := if_neg hg
  have hshrunk : s.shrunk = s := if_neg hload.not_needsShrink
  rw [insert, hgrown, remove, h.detach_write hk]
  simp only
  rw [hshrunk]

end ChainStore

/-! ## Slots -/

namespace SlotStore

variable {p : Probe} {s : SlotStore p K V} {i n : Nat} {u w : Slot K V}

/-- Only entries are listed, so a change of a slot that holds none before and after is not seen. -/
theorem entries_set (hw : s.slots[i]? = some w) (hu : u.entry? = w.entry?) :
    (⟨s.slots.setIfInBounds i u, n⟩ : SlotStore p K V).entries = s.entries := by
  have hlist : ∀ t : SlotStore p K V, t.entries = (t.slots.map Slot.entry?).toList.filterMap id :=
    fun t => by rw [entries, Array.toList_map, List.filterMap_map, Function.id_comp]
  have hsame : (s.slots.setIfInBounds i u).map Slot.entry? = s.slots.map Slot.entry? := by
    refine Array.ext_getElem? fun j => ?_
    rw [Array.getElem?_map, Array.getElem?_map, Array.getElem?_setIfInBounds]
    split
    · next hij =>
      obtain ⟨hlt, -⟩ := Array.getElem?_eq_some_iff.mp hw
      rw [if_pos hlt, ← hij, hw, Option.map_some, Option.map_some, hu]
    · rfl
  rw [hlist, hlist, hsame]

/-- The entry is taken from the slot it went to. What is left differs from the array before in
that slot alone, which held no entry and now is a tombstone. -/
theorem WellPlaced.vacate_write (h : s.WellPlaced) (hcap : ∃ k, s.capacity = 2 ^ k)
    (hroom : s.size < s.capacity) {key : K} (hk : s.get? key = none) (value : V) :
    ∃ i < s.slots.size, ¬Full s.slots i ∧ (s.write key value).vacate key =
      (some value, ⟨s.slots.setIfInBounds i .tombstone, s.size⟩) := by
  rcases h.write_cases hcap hroom key value with ⟨i, v, hv, -⟩ | ⟨i, -, ⟨hlt, hfree, -⟩, hw⟩
  · exact absurd hv (h.get?_eq_none_iff.mp hk i v)
  refine ⟨i, hlt, hfree, ?_⟩
  have hplaced : (s.write key value).WellPlaced := h.write key hcap hroom value
  have hi : (s.write key value).slots[i]? = some (.occupied ⟨key, value⟩) := by
    rw [hw]
    exact Array.getElem?_setIfInBounds_self_of_lt hlt
  have hfind : (s.write key value).find? key = some i := hplaced.find?_eq_some_iff.mpr ⟨value, hi⟩
  rw [SlotStore.vacate, hfind]
  simp only [hi]
  rw [hw, Array.setIfInBounds_setIfInBounds, Nat.add_sub_cancel]

/-- The entries stand where they stood before, if the insertion does not grow the array. -/
theorem WellPlaced.entries_remove_insert (h : s.WellPlaced)
    (hload : WithinLoad s.size s.capacity) (hg : ¬needsGrow s.size s.capacity = true) {key : K}
    (hk : s.get? key = none) (value : V) :
    ((s.insert key value).remove key).2.entries = s.entries := by
  have hgrown : s.grown = s := if_neg hg
  have hroom : s.size < s.capacity := by
    have hlt := hload.size_lt_grownCapacity
    rwa [grownCapacity, if_neg hg] at hlt
  obtain ⟨i, hlt, hfree, hvacate⟩ :=
    h.vacate_write (two_pow_of_doubled hload.doubled) hroom hk value
  have hshrunk : (⟨s.slots.setIfInBounds i .tombstone, s.size⟩ : SlotStore p K V).shrunk =
      ⟨s.slots.setIfInBounds i .tombstone, s.size⟩ := by
    refine if_neg ?_
    rw [Array.size_setIfInBounds]
    exact hload.not_needsShrink
  rw [insert, hgrown, remove, hvacate]
  simp only
  rw [hshrunk]
  refine entries_set (Array.getElem?_eq_getElem hlt) ?_
  cases hslot : s.slots[i] with
  | occupied e => exact absurd ⟨e, hslot ▸ Array.getElem?_eq_getElem hlt⟩ hfree
  | empty => rfl
  | tombstone => rfl

end SlotStore

/-! ## Stores -/

namespace Store

namespace Sound

variable {s : Store K V} (h : s.Sound) {key : K} (hk : key ∉ s.keys) (value : V)
include h hk

/-- The removal answers the value and leaves what can be seen of the store before, grown if the
insertion has grown it. -/
theorem remove_insert : ((s.insert key value).remove key).1 = some value ∧
    ((s.insert key value).remove key).2.view = s.view.grown := by
  have hnone : s.get? key = none := (h.get?_eq_none_iff key).mpr hk
  obtain ⟨hinsert, hview⟩ := h.insert key value
  obtain ⟨hfst, -, hremove⟩ := hinsert.remove key
  have hget : (s.insert key value).view.get? key = some value := by
    rw [hview]
    exact if_pos rfl
  refine ⟨hfst.trans hget, ?_⟩
  have hkept : ¬needsShrink s.size (grownCapacity s.size s.capacity) = true :=
    (h.load.grown (Or.inl rfl)).not_needsShrink
  have hsize : (s.view.grown.write key value).size = s.size + 1 := by
    have hgrown : s.view.grown.get? key = none := hnone
    rw [View.write, hgrown]
    rfl
  rw [hremove, View.remove_of_some hget, hview]
  refine View.ext (funext fun k => ?_) ?_ ?_
  · show (if k = key then none else if k = key then some value else s.get? k) = s.get? k
    split
    · next hkey => rw [hkey, hnone]
    · rfl
  · show (s.view.grown.write key value).size - 1 = s.size
    rw [hsize, Nat.add_sub_cancel]
  · show shrunkCapacity ((s.view.grown.write key value).size - 1)
      (grownCapacity s.size s.capacity) = grownCapacity s.size s.capacity
    rw [hsize, Nat.add_sub_cancel]
    exact if_neg hkept

/-- If the insertion does not grow the store, the keys are listed in the order they were in. -/
theorem keys_remove_insert (hg : ¬needsGrow s.size s.capacity = true) :
    ((s.insert key value).remove key).2.keys = s.keys := by
  have hnone : s.get? key = none := (h.get?_eq_none_iff key).mpr hk
  have hload := h.load
  obtain ⟨m, hinv, -⟩ := h
  cases s with
  | chained s =>
    have hsame := ChainStore.WellBucketed.remove_insert hinv hload hg hnone value
    simp only [Store.insert, Store.remove, Store.keys, hsame]
  | slotted p s =>
    have hsame := SlotStore.WellPlaced.entries_remove_insert hinv hload hg hnone value
    exact congrArg (List.map Entry.key) hsame

end Sound

/-- In every run of a store, the removal of a new key right after its insertion answers the value
and brings back the value under each key and the size. If the insertion left the capacity alone,
then so does the removal, and the keys are listed in the order they were in. If it did not, it
doubled the capacity, and the removal does not halve it again. -/
theorem remove_insert_run (σ : Strategy) (calls : List (Call K V)) (key : K) (value : V) :
    let s := (Keyed.run (empty σ : Store K V) calls).2
    let t := s.insert key value
    let u := (t.remove key).2
    key ∉ s.keys →
      (t.remove key).1 = some value ∧ (∀ k, u.get? k = s.get? k) ∧ u.size = s.size ∧
      (t.capacity = s.capacity → u.capacity = s.capacity ∧ u.keys = s.keys) ∧
      (t.capacity ≠ s.capacity → t.capacity = s.capacity * 2 ∧ u.capacity = s.capacity * 2) := by
  intro s t u hk
  have hs : s.Sound := sound_run calls (sound_empty σ)
  obtain ⟨hvalue, hview⟩ := hs.remove_insert hk value
  have hgrown : t.capacity = grownCapacity s.size s.capacity := hs.capacity_insert key value
  have hcapacity : u.capacity = t.capacity := (congrArg View.capacity hview).trans hgrown.symm
  refine ⟨hvalue, congrFun (congrArg View.get? hview), congrArg View.size hview,
    fun hsame => ?_, fun hne => ?_⟩
  · refine ⟨hcapacity.trans hsame, hs.keys_remove_insert hk value fun hg => ?_⟩
    have hdouble : s.capacity * 2 = s.capacity := by
      rwa [hgrown, grownCapacity, if_pos hg] at hsame
    have hpos := hs.load.initial_le
    simp only [initialCapacity] at hpos
    omega
  · have hdouble : t.capacity = s.capacity * 2 :=
      hgrown.trans ((grownCapacity_eq_or _ _).resolve_left fun hsame => hne (hgrown.trans hsame))
    exact ⟨hdouble, hcapacity.trans hdouble⟩

/-- The key 16 takes the place that the key 10 had, in the middle of the list, and leaves it. -/
theorem remove_insert_run_reused :
    let calls := ((List.range 12).map fun i => Call.insert i.toUInt8 i) ++ [.remove 10]
    let s := (Keyed.run (empty (.probing .double) : Store UInt8 Nat) calls).2
    let t := s.insert 16 12
    16 ∉ s.keys ∧ t.keys.idxOf 16 = 5 ∧ t.capacity = s.capacity ∧ (t.remove 16).1 = some 12 ∧
      (t.remove 16).2.keys = s.keys := by
  intro calls s t
  have hnew : 16 ∉ s.keys := by decide +kernel
  have hsame : t.capacity = s.capacity := by decide +kernel
  have hplace : t.keys.idxOf 16 = 5 := by decide +kernel
  obtain ⟨hvalue, -, -, hback, -⟩ := remove_insert_run (.probing .double) calls 16 12 hnew
  exact ⟨hnew, hplace, hsame, hvalue, (hback hsame).2⟩

end Store

end TableEngine
