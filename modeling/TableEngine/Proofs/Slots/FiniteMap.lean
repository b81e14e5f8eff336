import TableEngine.Proofs.Slots.Rebuild
import TableEngine.Proofs.Store.View

/-!
# Slot arrays are finite maps

Under every list of calls a slot array answers like a finite map, its size is the
number of keys of that map, and its list of keys names each of them once
(`run_slots_eq_run_mapping`). After every list of calls the array is well placed
(`wellPlaced_run`) : the size counts the occupied slots, no key is held twice, and no
empty slot stands on the way to an entry.

Both follow from what `SlotStore.insert` and `SlotStore.remove` do to the view of the
array (`SlotStore.viewed`).
-/

set_option linter.unusedSectionVars false

namespace TableEngine

variable {p : Probe} {K V : Type} [DecidableEq K] [StoreKey K]

namespace SlotStore

instance : Keyed (SlotStore p K V) K V where
  insert := SlotStore.insert
  get? := SlotStore.get?
  modify := SlotStore.modify
  remove := SlotStore.remove

namespace WellPlaced

variable {s : SlotStore p K V} (h : s.WellPlaced) (key : K)
include h

/-! ## The load -/

theorem view_grown (hload : WithinLoad s.size s.capacity) :
    s.grown.WellPlaced ∧ s.grown.view = s.view.grown := by
  refine View.grown_of_rebuild view h fun hg => ?_
  obtain ⟨hd, hroom⟩ := hload.doubled_of_needsGrow hg
  exact h.view_rebuild (two_pow_of_doubled hd) (initial_le_of_doubled hd) hroom.le

theorem view_shrunk (hd : ∃ k, s.capacity = initialCapacity * 2 ^ k) :
    s.shrunk.WellPlaced ∧ s.shrunk.view = s.view.shrunk := by
  refine View.shrunk_of_rebuild view h fun hs => ?_
  obtain ⟨hds, hroom⟩ := doubled_of_needsShrink hd hs
  exact h.view_rebuild (two_pow_of_doubled hds) (initial_le_of_doubled hds) hroom

/-! ## The operations -/

theorem view_insert (hload : WithinLoad s.size s.capacity) (value : V) :
    (s.insert key value).WellPlaced ∧
      (s.insert key value).view = s.view.grown.write key value := by
  obtain ⟨hg, hview⟩ := h.view_grown hload
  have hsize : s.grown.size = s.size := congrArg View.size hview
  have hcapacity : s.grown.capacity = grownCapacity s.size s.capacity :=
    congrArg View.capacity hview
  have hcap : ∃ k, s.grown.capacity = 2 ^ k :=
    hcapacity ▸ two_pow_of_doubled (doubled_grownCapacity _ hload.doubled)
  have hroom : s.grown.size < s.grown.capacity := by
    rw [hsize, hcapacity]
    exact hload.size_lt_grownCapacity
  rw [← hview]
  exact ⟨hg.write key hcap hroom value, hg.view_write key hcap hroom value⟩

theorem view_remove (hload : WithinLoad s.size s.capacity) :
    (s.remove key).1 = s.get? key ∧ (s.remove key).2.WellPlaced ∧
      (s.remove key).2.view = (s.view.remove key).2 := by
  have hremove : s.remove key = View.thenShrink shrunk (s.vacate key) := by
    unfold remove
    rcases s.vacate key with ⟨_ | _, _⟩ <;> rfl
  rw [hremove]
  refine View.remove_of_take view h (h.vacate_of_none key) fun value hk => ?_
  refine ⟨(s.vacate key).2, Prod.ext ((h.vacate_fst key).trans hk) rfl, ?_⟩
  rw [← h.view_vacate key hk]
  refine (h.vacate key).view_shrunk ?_
  rw [h.capacity_vacate]
  exact hload.doubled

end WellPlaced

theorem viewed : Viewed (WellPlaced (p := p) (K := K) (V := V)) view where
  get? _ _ := rfl
  insert h hload key value := h.view_insert key hload value
  modify h key f := ⟨h.modify key f, h.view_modify key f⟩
  remove h hload key := h.view_remove key hload

theorem shows_empty : (empty : SlotStore p K V).WellPlaced ∧
    (empty : SlotStore p K V).view.Shows (∅ : Mapping K V) :=
  ⟨wellPlaced_blank initialCapacity, view_blank (p := p) (K := K) (V := V) initialCapacity ▸
    View.shows_empty⟩

end SlotStore

/-- A slot array answers every list of calls as a finite map does. Afterwards its size is
the number of keys of the map, and it lists each of them once and no other. -/
theorem run_slots_eq_run_mapping (p : Probe) (calls : List (Call K V)) :
    let s := Keyed.run (SlotStore.empty : SlotStore p K V) calls
    let m := Keyed.run (∅ : Mapping K V) calls
    s.1 = m.1 ∧ s.2.size = m.2.keys.card ∧ s.2.keys.Nodup ∧ ∀ k, k ∈ s.2.keys ↔ k ∈ m.2 := by
  obtain ⟨hreply, hplaced, hshows⟩ := SlotStore.viewed.simulation.run calls
    (SlotStore.shows_empty (p := p))
  refine ⟨hreply, hshows.size_eq, hplaced.nodup_keys, fun k => ?_⟩
  rw [← Finmap.mem_keys]
  exact hplaced.lists.mem_keys_iff.trans (hshows.isSome_iff k)

/-- After every list of calls the array is well placed, and the walk for the key of an
entry finds it. -/
theorem wellPlaced_run (p : Probe) (calls : List (Call K V)) :
    let s := (Keyed.run (SlotStore.empty : SlotStore p K V) calls).2
    s.WellPlaced ∧ ∀ (i : Nat) (e : Entry K V), s.slots[i]? = some (.occupied e) →
      s.find? e.key = some i := by
  have hplaced := (SlotStore.viewed.simulation.run calls (SlotStore.shows_empty (p := p))).2.1
  exact ⟨hplaced, fun i e hi => hplaced.find?_eq_some_iff.mpr ⟨e.value, hi⟩⟩

end TableEngine
