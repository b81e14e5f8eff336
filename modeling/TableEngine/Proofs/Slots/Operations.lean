import TableEngine.Proofs.Slots.Placement
import TableEngine.Proofs.Store.Refill

/-!
# The operations of a slot array that do not rebuild it

Each of `SlotStore.write`, `SlotStore.modify` and `SlotStore.vacate` leaves the array
alone or writes the place of its key (`WellPlaced.write_cases`,
`WellPlaced.modify_cases`, `WellPlaced.vacate_cases`). From these follow, for every
operation, that the invariant is kept, and what it does to the view of the array
(`WellPlaced.view_write`, `WellPlaced.view_modify`, `WellPlaced.view_vacate`).

`SlotStore.write` needs a slot without an entry. On an array of `2 ^ k` slots that is
not full the walk meets one, since it visits every slot
(`WellPlaced.exists_placement`).
-/

set_option linter.unusedSectionVars false

namespace TableEngine

theorem modify_eq_set {α : Type} {xs : Array α} {i : Nat} {a : α} (h : xs[i]? = some a)
    (f : α → α) : xs.modify i f = xs.setIfInBounds i (f a) := by
  refine Array.ext (by simp) fun j hj hj' => ?_
  rw [Array.getElem_modify, Array.getElem_setIfInBounds (by simpa using hj)]
  split
  · next hij =>
    subst hij
    rw [(Array.getElem?_eq_some_iff.mp h).2]
  · rfl

namespace SlotStore

variable {p : Probe} {K V : Type} [DecidableEq K] [StoreKey K] {s : SlotStore p K V}

/-- What can be seen of the array apart from the order of its slots. -/
def view (s : SlotStore p K V) : View K V := ⟨s.get?, s.size, s.capacity⟩

namespace WellPlaced

/-! ## The place of a key -/

/-- An array with fewer entries than slots has a slot that holds none. -/
theorem exists_not_full (h : s.WellPlaced) (hroom : s.size < s.capacity) :
    ∃ i < s.slots.size, ¬Full s.slots i := by
  by_contra hall
  have hfull : ∀ i < s.slots.size, Full s.slots i := by simpa using hall
  have hcount : s.slots.countP Slot.isOccupied = s.slots.size := by
    rw [Array.countP_eq_size]
    intro u hu
    obtain ⟨i, hi, rfl⟩ := Array.getElem_of_mem hu
    obtain ⟨e, he⟩ := hfull i hi
    rw [(Array.getElem?_eq_some_iff.mp he).2]
    rfl
  have := h.size_eq
  rw [capacity] at hroom
  omega

/-- The walk for a key on an array with room finds the key or a vacancy. -/
theorem exists_placement (h : s.WellPlaced) (hcap : ∃ k, s.capacity = 2 ^ k)
    (hroom : s.size < s.capacity) (key : K) :
    (∃ i, ∃ v : V, s.place key = some (.existing i) ∧
      s.slots[i]? = some (.occupied ⟨key, v⟩)) ∨
    (∃ i, s.place key = some (.vacant i) ∧ s.get? key = none ∧
      Vacancy p s.slots (StoreKey.hash key) i) := by
  cases hpl : s.place key with
  | none =>
    obtain ⟨k, hk⟩ := hcap
    obtain ⟨i, hi, hnot⟩ := h.exists_not_full hroom
    obtain ⟨j, hj, rfl⟩ : ∃ j < s.slots.size, p.slot (StoreKey.hash key) j s.slots.size = i :=
      p.exists_attempt _ hk hi
    have hfull := (full_of_placeFrom_eq_none _ _ (by omega) hpl).2
    exact absurd (hfull j (Nat.zero_le j) (by omega)) hnot
  | some pl =>
    cases pl with
    | existing i =>
      obtain ⟨v, hv⟩ := occupied_of_findFrom _ _ (findFrom_of_existing _ _ hpl)
      exact Or.inl ⟨i, v, rfl, hv⟩
    | vacant i =>
      refine Or.inr ⟨i, rfl, get?_eq_none_of_find? (findFrom_of_vacant _ _ hpl), ?_⟩
      exact vacancy_of_placeFrom _ _ (by omega) (by simp) (by simp) hpl

/-! ## What the operations write -/

/-- A write of an entry goes to the place of its key : over the earlier entry, or into the
first slot of its sequence that is not full. -/
theorem write_cases (h : s.WellPlaced) (hcap : ∃ k, s.capacity = 2 ^ k)
    (hroom : s.size < s.capacity) (key : K) (value : V) :
    (∃ i, ∃ v : V, s.slots[i]? = some (.occupied ⟨key, v⟩) ∧
      s.write key value = ⟨s.slots.setIfInBounds i (.occupied ⟨key, value⟩), s.size⟩) ∨
    (∃ i, s.get? key = none ∧ Vacancy p s.slots (StoreKey.hash key) i ∧
      s.write key value = ⟨s.slots.setIfInBounds i (.occupied ⟨key, value⟩), s.size + 1⟩) := by
  rcases h.exists_placement hcap hroom key with ⟨i, v, hpl, hv⟩ | ⟨i, hpl, hk, hvac⟩
  · exact Or.inl ⟨i, v, hv, by simp [write, hpl]⟩
  · exact Or.inr ⟨i, hk, hvac, by simp [write, hpl]⟩

theorem modify_cases (h : s.WellPlaced) (key : K) (f : V → V) :
    (∃ i, ∃ v : V, s.slots[i]? = some (.occupied ⟨key, v⟩) ∧
      s.modify key f = ⟨s.slots.setIfInBounds i (.occupied ⟨key, f v⟩), s.size⟩) ∨
    (s.get? key = none ∧ s.modify key f = s) := by
  cases hf : s.find? key with
  | none => exact Or.inr ⟨get?_eq_none_of_find? hf, by simp [modify, hf]⟩
  | some i =>
    obtain ⟨v, hv⟩ := h.find?_eq_some_iff.mp hf
    exact Or.inl ⟨i, v, hv, by simp [modify, hf, modify_eq_set hv, Slot.mapValue]⟩

theorem vacate_cases (h : s.WellPlaced) (key : K) :
    (∃ i, ∃ v : V, s.slots[i]? = some (.occupied ⟨key, v⟩) ∧
      s.vacate key = (some v, ⟨s.slots.setIfInBounds i .tombstone, s.size - 1⟩)) ∨
    (s.get? key = none ∧ s.vacate key = (none, s)) := by
  cases hf : s.find? key with
  | none => exact Or.inr ⟨get?_eq_none_of_find? hf, by simp [vacate, hf]⟩
  | some i =>
    obtain ⟨v, hv⟩ := h.find?_eq_some_iff.mp hf
    exact Or.inl ⟨i, v, hv, by simp [vacate, hf, hv]⟩

/-! ## The invariant, look-ups and sizes afterwards -/

variable (h : s.WellPlaced) (key : K)

section Write

variable (hcap : ∃ k, s.capacity = 2 ^ k) (hroom : s.size < s.capacity) (value : V)
include h hcap hroom

theorem write : (s.write key value).WellPlaced := by
  rcases h.write_cases hcap hroom key value with ⟨i, v, hv, hw⟩ | ⟨i, hk, hi, hw⟩
  · exact hw ▸ h.overwrite hv
  · exact hw ▸ h.occupy hk hi

theorem get?_write (k : K) :
    (s.write key value).get? k = if k = key then some value else s.get? k := by
  rcases h.write_cases hcap hroom key value with ⟨i, v, hv, hw⟩ | ⟨i, hk, hi, hw⟩
  · exact hw ▸ h.get?_overwrite hv k
  · exact hw ▸ h.get?_occupy hk hi k

/-- A write adds one entry if the key is new and none otherwise. -/
theorem size_write :
    (s.write key value).size = if (s.get? key).isSome then s.size else s.size + 1 := by
  rcases h.write_cases hcap hroom key value with ⟨i, v, hv, hw⟩ | ⟨i, hk, hi, hw⟩
  · rw [hw, h.get?_eq_some_iff.mpr ⟨i, hv⟩]
    rfl
  · rw [hw, hk]
    rfl

theorem capacity_write : (s.write key value).capacity = s.capacity := by
  rcases h.write_cases hcap hroom key value with ⟨i, v, hv, hw⟩ | ⟨i, hk, hi, hw⟩ <;>
    rw [hw] <;> exact Array.size_setIfInBounds

theorem view_write : (s.write key value).view = s.view.write key value :=
  View.ext (funext fun k => h.get?_write key hcap hroom value k)
    (h.size_write key hcap hroom value) (h.capacity_write key hcap hroom value)

end Write

section Modify

variable (f : V → V)
include h

theorem modify : (s.modify key f).WellPlaced := by
  rcases h.modify_cases key f with ⟨i, v, hv, hm⟩ | ⟨hk, hm⟩
  · exact hm ▸ h.overwrite hv
  · rwa [hm]

theorem get?_modify (k : K) :
    (s.modify key f).get? k = if k = key then (s.get? key).map f else s.get? k := by
  rcases h.modify_cases key f with ⟨i, v, hv, hm⟩ | ⟨hk, hm⟩
  · rw [hm, h.get?_overwrite hv, h.get?_eq_some_iff.mpr ⟨i, hv⟩]
    rfl
  · rw [hm, hk]
    split
    · next hkk => rw [hkk, hk]; rfl
    · rfl

theorem size_modify : (s.modify key f).size = s.size := by
  rcases h.modify_cases key f with ⟨i, v, hv, hm⟩ | ⟨hk, hm⟩ <;> rw [hm]

theorem capacity_modify : (s.modify key f).capacity = s.capacity := by
  rcases h.modify_cases key f with ⟨i, v, hv, hm⟩ | ⟨hk, hm⟩
  · rw [hm]
    exact Array.size_setIfInBounds
  · rw [hm]

theorem view_modify : (s.modify key f).view = s.view.modify key f :=
  View.ext (funext fun k => h.get?_modify key f k) (h.size_modify key f) (h.capacity_modify key f)

end Modify

section Vacate

include h

theorem vacate : (s.vacate key).2.WellPlaced := by
  rcases h.vacate_cases key with ⟨i, v, hv, hr⟩ | ⟨hk, hr⟩
  · rw [hr]
    exact h.bury hv
  · rw [hr]
    exact h

theorem vacate_fst : (s.vacate key).1 = s.get? key := by
  rcases h.vacate_cases key with ⟨i, v, hv, hr⟩ | ⟨hk, hr⟩
  · rw [hr, h.get?_eq_some_iff.mpr ⟨i, hv⟩]
  · rw [hr, hk]

theorem get?_vacate (k : K) : (s.vacate key).2.get? k = if k = key then none else s.get? k := by
  rcases h.vacate_cases key with ⟨i, v, hv, hr⟩ | ⟨hk, hr⟩
  · rw [hr]
    exact h.get?_bury hv k
  · rw [hr]
    split
    · next hkk => rw [hkk, hk]
    · rfl

/-- The removal of a key that is there takes one entry away. -/
theorem size_vacate {v : V} (hv : s.get? key = some v) : (s.vacate key).2.size + 1 = s.size := by
  obtain ⟨i, hi⟩ := h.get?_eq_some_iff.mp hv
  have := h.size_pos hi
  rcases h.vacate_cases key with ⟨i, v, -, hr⟩ | ⟨hk, -⟩
  · rw [hr]
    exact Nat.sub_add_cancel this
  · exact absurd (hk.symm.trans hv) (by simp)

theorem capacity_vacate : (s.vacate key).2.capacity = s.capacity := by
  rcases h.vacate_cases key with ⟨i, v, hv, hr⟩ | ⟨hk, hr⟩
  · rw [hr]
    exact Array.size_setIfInBounds
  · rw [hr]

theorem view_vacate {v : V} (hv : s.get? key = some v) :
    (s.vacate key).2.view = s.view.erase key :=
  View.ext (funext fun k => h.get?_vacate key k)
    (Nat.eq_sub_of_add_eq (h.size_vacate key hv)) (h.capacity_vacate key)

theorem vacate_of_none (hk : s.get? key = none) : s.vacate key = (none, s) := by
  rcases h.vacate_cases key with ⟨i, v, hv, -⟩ | ⟨-, hr⟩
  · exact absurd (h.get?_eq_some_iff.mpr ⟨i, hv⟩) (by simp [hk])
  · exact hr

end Vacate

end WellPlaced

end SlotStore

end TableEngine
