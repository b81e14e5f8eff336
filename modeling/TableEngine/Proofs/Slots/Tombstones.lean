import TableEngine.Proofs.Slots.Reinsertion
import TableEngine.Proofs.Store.Outline

/-!
# Which slot an operation takes, and how many tombstones it leaves

As long as the array is not rebuilt, an operation writes one slot (`SlotStore.Rewritten`). An
insertion of a new key takes the first slot of its sequence without an entry, and a tombstone is
used up if it stood there (`SlotStore.WellPlaced.rewritten_write`). A removal leaves a tombstone in
the slot of the key (`SlotStore.WellPlaced.rewritten_vacate`). A rebuild leaves no tombstones, and
the insertion that follows it adds none.

So `tombstones_run` accounts for every tombstone of a run.
-/

set_option linter.unusedSectionVars false

namespace TableEngine

variable {p : Probe} {K V : Type} [DecidableEq K] [StoreKey K]

namespace SlotStore

variable {s t : SlotStore p K V} {i n : Nat} {u w : Slot K V}

/-- The arrays differ at most in slot `i`, which held `u` and now holds `w`. -/
structure Rewritten (s t : SlotStore p K V) (i : Nat) (u w : Slot K V) : Prop where
  before : s.slots[i]? = some u
  after : t.slots[i]? = some w
  elsewhere : ∀ j, j ≠ i → t.slots[j]? = s.slots[j]?

theorem rewritten_set (hu : s.slots[i]? = some u) :
    Rewritten s ⟨s.slots.setIfInBounds i w, n⟩ i u w where
  before := hu
  after := Array.getElem?_setIfInBounds_self_of_lt (Array.getElem?_eq_some_iff.mp hu).1
  elsewhere _ hj := Array.getElem?_setIfInBounds_ne hj.symm

theorem tombstones_set (hu : s.slots[i]? = some u) :
    (⟨s.slots.setIfInBounds i w, n⟩ : SlotStore p K V).tombstones +
      (if u.isTombstone then 1 else 0) = s.tombstones + (if w.isTombstone then 1 else 0) :=
  countP_set Slot.isTombstone hu

namespace WellPlaced

variable (h : s.WellPlaced) (key : K)
include h

/-- Entries and tombstones stand in different slots. -/
theorem size_add_tombstones_le : s.size + s.tombstones ≤ s.capacity := by
  have hcount : s.slots.size = _ := Array.size_eq_countP_add_countP (p := Slot.isOccupied)
  have hfree : s.tombstones ≤ s.slots.countP fun u => !u.isOccupied := by
    refine Array.countP_mono_left fun u _ hmark => ?_
    cases u with
    | tombstone => rfl
    | empty => cases hmark
    | occupied e => cases hmark
  have hsize := h.size_eq
  rw [capacity]
  simp only [Bool.not_eq_true, Bool.decide_eq_false] at hcount
  omega

theorem get?_eq_none_iff_not_mem_keys : s.get? key = none ↔ key ∉ s.keys := by
  rw [keys, h.lists.mem_keys_iff, Option.not_isSome_iff_eq_none]
  rfl

/-- A write over an earlier entry is a change of its value. -/
theorem write_eq_modify (hcap : ∃ k, s.capacity = 2 ^ k) (hroom : s.size < s.capacity)
    (hk : key ∈ s.keys) (value : V) : s.write key value = s.modify key fun _ => value := by
  have hsome : s.get? key ≠ none := fun hnone => (h.get?_eq_none_iff_not_mem_keys key).mp hnone hk
  rcases h.write_cases hcap hroom key value with ⟨i, v, hv, hwrite⟩ | ⟨_, hnone, -⟩
  · rcases h.modify_cases key fun _ => value with ⟨j, v', hv', hmodify⟩ | ⟨hnone, -⟩
    · rw [hwrite, hmodify, h.distinct hv hv' rfl]
    · exact absurd hnone hsome
  · exact absurd hnone hsome

/-- A write changes the value of the key, and neither the keys nor the tombstones. For a new key
it takes the first slot of its sequence without an entry, be it a tombstone or empty. -/
theorem rewritten_write (hcap : ∃ k, s.capacity = 2 ^ k) (hroom : s.size < s.capacity)
    (value : V) :
    let t := s.write key value
    if key ∈ s.keys then
      (∃ i v, Rewritten s t i (.occupied ⟨key, v⟩) (.occupied ⟨key, value⟩)) ∧ t.size = s.size ∧
        t.keys = s.keys ∧ t.tombstones = s.tombstones
    else ∃ i u, Vacancy p s.slots (StoreKey.hash key) i ∧
      Rewritten s t i u (.occupied ⟨key, value⟩) ∧ t.size = s.size + 1 ∧
      t.tombstones + (if u.isTombstone then 1 else 0) = s.tombstones := by
  intro t
  have hnone := h.get?_eq_none_iff_not_mem_keys key
  rcases h.write_cases hcap hroom key value with ⟨i, v, hv, (ht : t = _)⟩ |
    ⟨i, hk, hi, (ht : t = _)⟩
  · have hk : key ∈ s.keys := by
      by_contra hk
      exact h.get?_eq_none_iff.mp (hnone.mpr hk) i v hv
    have houtline : t.outline = s.outline := by
      rw [show t = s.modify key fun _ => value from h.write_eq_modify key hcap hroom hk value,
        outline_modify]
    rw [if_pos hk, ← keys_outline t, ← keys_outline s, ← tombstones_outline t,
      ← tombstones_outline s, houtline, ht]
    exact ⟨⟨i, v, rewritten_set hv⟩, rfl, rfl, rfl⟩
  · obtain ⟨u, hu⟩ : ∃ u, s.slots[i]? = some u := ⟨_, Array.getElem?_eq_getElem hi.1⟩
    rw [if_neg (hnone.mp hk), ht]
    exact ⟨i, u, hi, rewritten_set hu, rfl, tombstones_set hu⟩

/-- A write puts no tombstone anywhere. -/
theorem tombstones_write_le (hcap : ∃ k, s.capacity = 2 ^ k) (hroom : s.size < s.capacity)
    (value : V) : (s.write key value).tombstones ≤ s.tombstones := by
  have hwrite := h.rewritten_write key hcap hroom value
  simp only at hwrite
  split at hwrite
  · exact hwrite.2.2.2.le
  · obtain ⟨i, u, -, -, -, hmarks⟩ := hwrite
    exact (Nat.le_add_right _ _).trans hmarks.le

/-- A removal leaves a tombstone where the key was. -/
theorem rewritten_vacate (hk : key ∈ s.keys) :
    let t := (s.vacate key).2
    ∃ i v, Rewritten s t i (.occupied ⟨key, v⟩) .tombstone ∧ t.size + 1 = s.size ∧
      t.tombstones = s.tombstones + 1 := by
  intro t
  rcases h.vacate_cases key with ⟨i, v, hv, ht⟩ | ⟨hnone, -⟩
  · have hpos := h.size_pos hv
    rw [show t = _ from congrArg Prod.snd ht]
    exact ⟨i, v, rewritten_set hv, Nat.sub_add_cancel hpos, tombstones_set hv⟩
  · exact absurd hk ((h.get?_eq_none_iff_not_mem_keys key).mp hnone)

theorem remove_of_mem (hk : key ∈ s.keys) : (s.remove key).2 = (s.vacate key).2.shrunk := by
  obtain ⟨value, hvalue⟩ :=
    Option.ne_none_iff_exists'.mp fun hnone => (h.get?_eq_none_iff_not_mem_keys key).mp hnone hk
  have hvacate : s.vacate key = (some value, (s.vacate key).2) :=
    Prod.ext ((h.vacate_fst key).trans hvalue) rfl
  rw [remove, hvacate]

theorem remove_of_not_mem (hk : key ∉ s.keys) : (s.remove key).2 = s := by
  have hnone := (h.get?_eq_none_iff_not_mem_keys key).mpr hk
  rw [remove, h.vacate_of_none key hnone]

/-- The insertion that doubles the array writes into one without tombstones. -/
theorem tombstones_insert (hload : WithinLoad s.size s.capacity)
    (hg : needsGrow s.size s.capacity) (value : V) :
    (s.insert key value).capacity = s.capacity * 2 ∧ (s.insert key value).tombstones = 0 := by
  have hmoved := h.moved_grown hload hg
  have hgrown := (h.view_grown hload).1
  obtain ⟨hd, hroom⟩ := hload.doubled_of_needsGrow hg
  rw [← hmoved.capacity_eq] at hd hroom
  rw [← hmoved.size_eq] at hroom
  have hcap := two_pow_of_doubled hd
  constructor
  · exact (hgrown.capacity_write key hcap hroom value).trans hmoved.capacity_eq
  · have hle := hgrown.tombstones_write_le key hcap hroom value
    rw [hmoved.tombstones_eq] at hle
    exact Nat.le_zero.mp hle

/-- The removal that halves the array leaves one without tombstones, the slot it vacated
included. -/
theorem tombstones_shrunk (hd : ∃ k, s.capacity = initialCapacity * 2 ^ k)
    (hs : needsShrink s.size s.capacity) :
    s.shrunk.capacity < s.capacity ∧ s.shrunk.tombstones = 0 := by
  have hmoved := h.moved_shrunk hd hs
  have hpos : 0 < s.capacity := by
    obtain ⟨k, hk⟩ := two_pow_of_doubled hd
    exact hk ▸ Nat.two_pow_pos k
  exact ⟨hmoved.capacity_eq ▸ Nat.div_lt_self hpos (by decide), hmoved.tombstones_eq⟩

end WellPlaced

end SlotStore

open SlotStore

/-- In every run of a slot array, entries and tombstones together are no more than the slots. An
insertion or removal that changes the capacity leaves no tombstones. Any other insertion writes one
slot. For a key that is there it is the slot of its entry, whose value alone changes, and the
list of keys and the number of tombstones stay as they were. For a new key it is the first slot on
its sequence that holds no entry, and there is one tombstone less if that was one. Any other
removal of a key that is there puts one tombstone more in the slot of its entry, and the removal of
an absent key changes nothing. -/
theorem tombstones_run (p : Probe) (calls : List (Call K V)) :
    let s := (Keyed.run (SlotStore.empty : SlotStore p K V) calls).2
    s.size + s.tombstones ≤ s.capacity ∧
    (∀ key value,
      let t := s.insert key value
      if t.capacity ≠ s.capacity then t.tombstones = 0
      else if key ∈ s.keys then
        (∃ i v, Rewritten s t i (.occupied ⟨key, v⟩) (.occupied ⟨key, value⟩)) ∧
          t.size = s.size ∧ t.keys = s.keys ∧ t.tombstones = s.tombstones
      else ∃ i u, Vacancy p s.slots (StoreKey.hash key) i ∧
        Rewritten s t i u (.occupied ⟨key, value⟩) ∧ t.size = s.size + 1 ∧
        t.tombstones + (if u.isTombstone then 1 else 0) = s.tombstones) ∧
    ∀ key,
      let t := (s.remove key).2
      if t.capacity ≠ s.capacity then t.tombstones = 0
      else if key ∈ s.keys then
        ∃ i v, Rewritten s t i (.occupied ⟨key, v⟩) .tombstone ∧ t.size + 1 = s.size ∧
          t.tombstones = s.tombstones + 1
      else t = s := by
  intro s
  obtain ⟨-, hplaced, hshows⟩ := viewed.simulation.run calls (shows_empty (p := p))
  have hload : WithinLoad s.size s.capacity := hshows.load
  refine ⟨hplaced.size_add_tombstones_le, fun key value => ?_, fun key => ?_⟩
  · intro t
    by_cases hg : needsGrow s.size s.capacity
    · obtain ⟨hdouble, hmarks⟩ := hplaced.tombstones_insert key hload hg value
      have hne : t.capacity ≠ s.capacity := by
        have hpos := hload.size_lt_grownCapacity
        rw [grownCapacity, if_pos hg] at hpos
        rw [show t.capacity = s.capacity * 2 from hdouble]
        omega
      rw [if_pos hne]
      exact hmarks
    · have hroom := hload.size_lt_grownCapacity
      rw [grownCapacity, if_neg hg] at hroom
      have hcap := two_pow_of_doubled hload.doubled
      have ht : t = s.write key value := congrArg (SlotStore.write · key value) (if_neg hg)
      rw [ht, hplaced.capacity_write key hcap hroom, if_neg (not_not_intro rfl)]
      exact hplaced.rewritten_write key hcap hroom value
  · intro t
    by_cases hk : key ∈ s.keys
    · have ht : t = (s.vacate key).2.shrunk := hplaced.remove_of_mem key hk
      have hcapacity := hplaced.capacity_vacate key
      rw [ht]
      by_cases hs : needsShrink (s.vacate key).2.size (s.vacate key).2.capacity
      · obtain ⟨hlt, hmarks⟩ :=
          (hplaced.vacate key).tombstones_shrunk (hcapacity ▸ hload.doubled) hs
        rw [if_pos (hcapacity ▸ hlt.ne)]
        exact hmarks
      · rw [show (s.vacate key).2.shrunk = (s.vacate key).2 from if_neg hs, hcapacity,
          if_neg (not_not_intro rfl), if_pos hk]
        exact hplaced.rewritten_vacate key hk
    · have ht : t = s := hplaced.remove_of_not_mem key hk
      rw [ht, if_neg (not_not_intro rfl), if_neg hk]

end TableEngine
