import TableEngine.Store.Load
import Mathlib.Algebra.Order.Ring.Nat
import Mathlib.Tactic.Ring

/-!
# The load of a store stays in bounds

`WithinLoad` : the capacity is the initial one doubled some number of times, at
most three quarters of it are in use, and above the initial capacity more than one
quarter is. One doubling before an insertion and one halving after a removal keep
these bounds (`WithinLoad.grown`, `WithinLoad.shrunk`), and the doubled array has
room for the new entry (`WithinLoad.size_lt_grownCapacity`).
-/

namespace TableEngine

/-- The bounds on the number of entries and the capacity. -/
structure WithinLoad (size capacity : Nat) : Prop where
  doubled : ∃ k, capacity = initialCapacity * 2 ^ k
  atMost : size * 4 ≤ capacity * 3
  moreThan : capacity = initialCapacity ∨ capacity < size * 4

/-- The capacity an insertion finds : doubled if the load asks for it. -/
def grownCapacity (size capacity : Nat) : Nat :=
  if needsGrow size capacity then capacity * 2 else capacity

/-- The capacity a removal leaves : halved if the load asks for it. -/
def shrunkCapacity (size capacity : Nat) : Nat :=
  if needsShrink size capacity then capacity / 2 else capacity

theorem needsGrow_iff {size capacity : Nat} :
    needsGrow size capacity = true ↔ capacity * 3 ≤ size * 4 := by
  simp [needsGrow]

theorem needsShrink_iff {size capacity : Nat} :
    needsShrink size capacity = true ↔ size * 4 ≤ capacity ∧ initialCapacity < capacity := by
  simp [needsShrink]

/-! ## Doublings of the initial capacity -/

theorem two_pow_of_doubled {capacity : Nat} (h : ∃ k, capacity = initialCapacity * 2 ^ k) :
    ∃ k, capacity = 2 ^ k := by
  obtain ⟨k, rfl⟩ := h
  exact ⟨4 + k, by rw [pow_add, initialCapacity]; norm_num⟩

theorem initial_le_of_doubled {capacity : Nat} (h : ∃ k, capacity = initialCapacity * 2 ^ k) :
    initialCapacity ≤ capacity := by
  obtain ⟨k, rfl⟩ := h
  exact Nat.le_mul_of_pos_right _ (Nat.two_pow_pos k)

theorem four_dvd_of_doubled {capacity : Nat} (h : ∃ k, capacity = initialCapacity * 2 ^ k) :
    4 ∣ capacity := by
  obtain ⟨k, rfl⟩ := h
  exact Dvd.dvd.mul_right (by decide) _

theorem doubled_grownCapacity (size : Nat) {capacity : Nat}
    (h : ∃ k, capacity = initialCapacity * 2 ^ k) :
    ∃ k, grownCapacity size capacity = initialCapacity * 2 ^ k := by
  obtain ⟨k, rfl⟩ := h
  unfold grownCapacity
  split
  · exact ⟨k + 1, by rw [pow_succ, Nat.mul_assoc]⟩
  · exact ⟨k, rfl⟩

/-- Half a capacity above the initial one is still a doubling of it. -/
theorem doubled_shrunkCapacity (size : Nat) {capacity : Nat}
    (h : ∃ k, capacity = initialCapacity * 2 ^ k) :
    ∃ k, shrunkCapacity size capacity = initialCapacity * 2 ^ k := by
  obtain ⟨k, rfl⟩ := h
  unfold shrunkCapacity
  split
  · next hs =>
    cases k with
    | zero => simp [needsShrink] at hs
    | succ k => exact ⟨k, by rw [pow_succ, ← Nat.mul_assoc, Nat.mul_div_cancel _ (by decide)]⟩
  · exact ⟨k, rfl⟩

/-- An array that asks to be halved has room for its entries in half of it. -/
theorem doubled_of_needsShrink {size capacity : Nat} (h : ∃ k, capacity = initialCapacity * 2 ^ k)
    (hs : needsShrink size capacity) :
    (∃ k, capacity / 2 = initialCapacity * 2 ^ k) ∧ size ≤ capacity / 2 := by
  have hd := doubled_shrunkCapacity size h
  rw [show shrunkCapacity size capacity = capacity / 2 from if_pos hs] at hd
  have hfew := (needsShrink_iff.mp hs).1
  exact ⟨hd, by omega⟩

/-! ## The bounds are kept -/

namespace WithinLoad

variable {size capacity : Nat}

theorem initial : WithinLoad 0 initialCapacity :=
  ⟨⟨0, by simp⟩, by simp, Or.inl rfl⟩

theorem initial_le (h : WithinLoad size capacity) : initialCapacity ≤ capacity :=
  initial_le_of_doubled h.doubled

/-- After the growth there is room for one more entry. -/
theorem size_lt_grownCapacity (h : WithinLoad size capacity) :
    size < grownCapacity size capacity := by
  have hcap := h.initial_le
  have hle := h.atMost
  unfold grownCapacity
  split
  · simp only [initialCapacity] at hcap
    omega
  · next hn =>
    rw [needsGrow_iff] at hn
    omega

/-- No store within the bounds asks to be halved. -/
theorem not_needsShrink (h : WithinLoad size capacity) : ¬needsShrink size capacity = true := by
  rw [needsShrink_iff]
  rcases h.moreThan with hi | hm <;> omega

/-- An array that asks to be doubled has room for one more entry then. -/
theorem doubled_of_needsGrow (h : WithinLoad size capacity) (hg : needsGrow size capacity) :
    (∃ k, capacity * 2 = initialCapacity * 2 ^ k) ∧ size < capacity * 2 := by
  have hd := doubled_grownCapacity size h.doubled
  have hroom := h.size_lt_grownCapacity
  rw [show grownCapacity size capacity = capacity * 2 from if_pos hg] at hd hroom
  exact ⟨hd, hroom⟩

/-- An insertion adds at most one entry. -/
theorem grown (h : WithinLoad size capacity) {n : Nat} (hn : n = size ∨ n = size + 1) :
    WithinLoad n (grownCapacity size capacity) := by
  have hd := doubled_grownCapacity size h.doubled
  have hcap := h.initial_le
  have hle := h.atMost
  simp only [initialCapacity] at hcap
  by_cases hg : needsGrow size capacity
  · have hc : grownCapacity size capacity = capacity * 2 := if_pos hg
    rw [needsGrow_iff] at hg
    exact ⟨hd, by omega, Or.inr (by omega)⟩
  · have hc : grownCapacity size capacity = capacity := if_neg hg
    rw [needsGrow_iff] at hg
    -- a strict bound leaves a whole entry, as three quarters of the capacity are a number
    have h4 := four_dvd_of_doubled h.doubled
    refine ⟨hd, by omega, ?_⟩
    rcases h.moreThan with hi | hm
    · exact Or.inl (hc.trans hi)
    · exact Or.inr (by omega)

/-- A removal takes one entry away. -/
theorem shrunk (h : WithinLoad (size + 1) capacity) :
    WithinLoad size (shrunkCapacity size capacity) := by
  have hd := doubled_shrunkCapacity size h.doubled
  have hcap := h.initial_le
  have hle := h.atMost
  by_cases hs : needsShrink size capacity
  · have hc : shrunkCapacity size capacity = capacity / 2 := if_pos hs
    rw [needsShrink_iff] at hs
    simp only [initialCapacity] at hs
    refine ⟨hd, by omega, Or.inr ?_⟩
    rcases h.moreThan with hi | hm
    · simp only [initialCapacity] at hi
      omega
    · omega
  · have hc : shrunkCapacity size capacity = capacity := if_neg hs
    rw [needsShrink_iff] at hs
    exact ⟨hd, by omega, by omega⟩

end WithinLoad

end TableEngine
