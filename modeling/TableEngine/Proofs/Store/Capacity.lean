import TableEngine.Proofs.Store.Agreement

/-!
# The load of every store that is reached

Under every strategy and after every list of calls the load is within its bounds
(`withinLoad_run`) : the capacity is the initial one doubled some number of times, at
most three quarters of it are in use, and above the initial capacity more than one
quarter is. An insertion keeps the capacity or doubles it, the removal of a key that is
there keeps it or halves it, and the removal of any other key changes nothing.

The step is `Store.sound_apply` : a call keeps a sound store sound. The capacities are
read off the view of a sound store.
-/

set_option linter.unusedSectionVars false

namespace TableEngine

/-! ## One step of the capacity -/

theorem grownCapacity_eq_or (size capacity : Nat) :
    grownCapacity size capacity = capacity ∨ grownCapacity size capacity = capacity * 2 := by
  unfold grownCapacity
  split
  · exact Or.inr rfl
  · exact Or.inl rfl

/-- Nothing is lost when a doubling of the initial capacity is halved. -/
theorem shrunkCapacity_eq_or (size : Nat) {capacity : Nat}
    (h : ∃ k, capacity = initialCapacity * 2 ^ k) :
    shrunkCapacity size capacity = capacity ∨ shrunkCapacity size capacity * 2 = capacity := by
  have h4 := four_dvd_of_doubled h
  unfold shrunkCapacity
  split
  · exact Or.inr (by omega)
  · exact Or.inl rfl

namespace Store

variable {K V : Type} [DecidableEq K] [StoreKey K]

namespace Sound

variable {s : Store K V} (h : s.Sound) (key : K)
include h

theorem load : WithinLoad s.size s.capacity := by
  obtain ⟨m, -, hm⟩ := h
  exact hm.load

theorem capacity_insert (value : V) :
    (s.insert key value).capacity = grownCapacity s.size s.capacity :=
  congrArg View.capacity (h.insert key value).2

theorem get?_eq_none_iff : s.get? key = none ↔ key ∉ s.keys := by
  rw [h.mem_keys_iff, Option.not_isSome_iff_eq_none]

theorem capacity_remove (hk : key ∈ s.keys) :
    (s.remove key).2.capacity = shrunkCapacity (s.size - 1) s.capacity := by
  obtain ⟨value, hvalue⟩ := Option.isSome_iff_exists.mp ((h.mem_keys_iff key).mp hk)
  have hview := (h.remove key).2.2
  rw [View.remove_of_some hvalue] at hview
  exact congrArg View.capacity hview

/-- To remove an absent key changes neither the backing array nor the size. -/
theorem remove_of_absent (hk : key ∉ s.keys) : s.remove key = (none, s) := by
  have hnone := (h.get?_eq_none_iff key).mpr hk
  obtain ⟨m, hinv, -⟩ := h
  cases s with
  | chained s =>
    have htake := ChainStore.WellBucketed.detach_of_none hinv key hnone
    simp [Store.remove, ChainStore.remove, htake]
  | slotted p s =>
    have htake := SlotStore.WellPlaced.vacate_of_none hinv key hnone
    simp [Store.remove, SlotStore.remove, htake]

end Sound

/-! ## Runs -/

/-- A call keeps a sound store sound. -/
theorem sound_apply {s : Store K V} (h : s.Sound) (c : Call K V) : (Keyed.apply s c).2.Sound := by
  obtain ⟨m, hm⟩ := h
  exact ⟨_, (viewed.simulation.apply hm c).2⟩

theorem sound_run : ∀ {s : Store K V} (calls : List (Call K V)), s.Sound →
    (Keyed.run s calls).2.Sound
  | _, [], h => h
  | _, c :: calls, h => sound_run calls (sound_apply h c)

/-- After every list of calls the load is within its bounds. One more insertion keeps the
capacity or doubles it, one more removal keeps it or halves it, and to remove a key that is
not there leaves the whole store as it is. -/
theorem withinLoad_run (σ : Strategy) (calls : List (Call K V)) :
    let s := (Keyed.run (empty σ : Store K V) calls).2
    WithinLoad s.size s.capacity ∧
      (∀ key value, (s.insert key value).capacity = s.capacity ∨
        (s.insert key value).capacity = s.capacity * 2) ∧
      ∀ key, if key ∈ s.keys then
          (s.remove key).2.capacity = s.capacity ∨ (s.remove key).2.capacity * 2 = s.capacity
        else s.remove key = (none, s) := by
  intro s
  have hs : s.Sound := sound_run calls (sound_empty σ)
  refine ⟨hs.load, fun key value => ?_, fun key => ?_⟩
  · rw [hs.capacity_insert]
    exact grownCapacity_eq_or _ _
  · split
    · next hk =>
      rw [hs.capacity_remove key hk]
      exact shrunkCapacity_eq_or _ hs.load.doubled
    · next hk => exact hs.remove_of_absent key hk

end Store

end TableEngine
