import TableEngine.Proofs.Checked.Word
import TableEngine.Proofs.Probe.Coverage

/-!
# Probe sequences are permutations

The attempts below the capacity visit each of `2 ^ k` slots once and leave none out
(`Probe.bijOn_slot`), whatever the hash. As long as there are at most `2 ^ 32` slots, every
number on the way to a slot fits a word, so arithmetic on words finds the same slots
(`Probe.bijOn_checkedSlot`).
-/

namespace TableEngine.Probe

variable (p : Probe) (hash : UInt64)

/-- The slots of a sequence are a permutation of the slots of the array. -/
theorem bijOn_slot (k : Nat) :
    Set.BijOn (p.slot hash · (2 ^ k)) (Set.Iio (2 ^ k)) (Set.Iio (2 ^ k)) := by
  refine ⟨fun attempt _ => p.slot_lt hash attempt (Nat.two_pow_pos k), ?_, fun i hi => ?_⟩
  · exact fun i hi j hj h => p.slot_injOn hash hi hj h
  · obtain ⟨attempt, hattempt, rfl⟩ := p.exists_attempt hash rfl hi
    exact ⟨attempt, hattempt, rfl⟩

/-- On three slots the triangular offsets come back to the first slot too early. -/
example : quadratic.slot 0 2 3 = quadratic.slot 0 0 3 := by decide

/-- On an array of `2 ^ k` slots, and of at most `2 ^ 32`, a sequence visits every slot on exactly
one attempt below the capacity, and no number on the way to it overflows a word. -/
theorem bijOn_checkedSlot {k : Nat} (hk : k ≤ 32) :
    Set.BijOn (p.slot hash · (2 ^ k)) (Set.Iio (2 ^ k)) (Set.Iio (2 ^ k)) ∧
      ∀ attempt < 2 ^ k, p.checkedSlot hash attempt (2 ^ k) = .ok (p.slot hash attempt (2 ^ k)) :=
  have hcap : 2 ^ k ≤ 2 ^ 32 := Nat.pow_le_pow_right (by decide) hk
  ⟨p.bijOn_slot hash k, fun _ hlt => p.checkedSlot_eq hash hlt hcap⟩

/-- The greatest hash, on the last attempt of the largest array. -/
theorem bijOn_checkedSlot_greatest :
    32 ≤ 32 ∧ Set.BijOn (double.slot 0xffffffffffffffff · (2 ^ 32)) (Set.Iio (2 ^ 32))
      (Set.Iio (2 ^ 32)) ∧
    double.checkedSlot 0xffffffffffffffff (2 ^ 32 - 1) (2 ^ 32) = .ok 0 := by
  have h := double.bijOn_checkedSlot 0xffffffffffffffff (k := 32) le_rfl
  exact ⟨le_rfl, h.1, (h.2 (2 ^ 32 - 1) (by decide)).trans (by decide)⟩

end TableEngine.Probe
