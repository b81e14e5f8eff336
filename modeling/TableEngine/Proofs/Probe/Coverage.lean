import TableEngine.Store.Probe
import Mathlib.Data.Finset.Card
import Mathlib.Data.Nat.ModEq
import Mathlib.Data.Nat.Prime.Basic
import Mathlib.Tactic.Ring

/-!
# Probe sequences cover the array

On an array of `2 ^ k` slots the attempts below the capacity visit every slot
once. The offsets of the three sequences are distinct modulo `2 ^ k`
(`Probe.offset_injOn`) : consecutive numbers are, a multiple of an odd step is,
since the step is coprime to the capacity (`eq_of_mul_odd_modEq`), and so are the
triangular numbers, since of the factors `j − i` and `i + j + 1` of twice their
difference one is odd (`eq_of_triangle_modEq`).

Hence the slots are distinct (`Probe.slot_injOn`), and as there are as many of
them as attempts, each is visited (`Probe.exists_attempt`).
-/

namespace TableEngine

/-! ## Offsets modulo a power of two -/

theorem eq_of_modEq_of_lt {n i j : Nat} (h : i ≡ j [MOD n]) (hi : i < n) (hj : j < n) : i = j := by
  rwa [Nat.ModEq, Nat.mod_eq_of_lt hi, Nat.mod_eq_of_lt hj] at h

theorem coprime_two_pow {n : Nat} (hn : n % 2 = 1) (k : Nat) : Nat.Coprime (2 ^ k) n :=
  Nat.Coprime.pow_left k (Nat.coprime_two_left.mpr (Nat.odd_iff.mpr hn))

/-- A multiplication by an odd number loses nothing modulo a power of two. -/
theorem eq_of_mul_odd_modEq {k s i j : Nat} (hs : s % 2 = 1) (hi : i < 2 ^ k) (hj : j < 2 ^ k)
    (h : i * s ≡ j * s [MOD 2 ^ k]) : i = j :=
  eq_of_modEq_of_lt (Nat.ModEq.cancel_right_of_coprime (coprime_two_pow hs k) h) hi hj

theorem two_mul_triangle (i : Nat) : 2 * (i * (i + 1) / 2) = i * (i + 1) :=
  Nat.mul_div_cancel' (Nat.even_mul_succ_self i).two_dvd

/-- Twice the difference of two triangular numbers, in factors. -/
theorem two_mul_triangle_sub (i d : Nat) :
    2 * ((i + d) * (i + d + 1) / 2 - i * (i + 1) / 2) = d * (2 * i + d + 1) := by
  have h : (i + d) * (i + d + 1) = i * (i + 1) + d * (2 * i + d + 1) := by ring
  rw [Nat.mul_sub, two_mul_triangle, two_mul_triangle, h, Nat.add_sub_cancel_left]

/-- No triangular number differs from a later one by a multiple of `2 ^ k`, as long as
both stand at positions below `2 ^ k`. -/
theorem not_triangle_modEq {k i d : Nat} (hd : 0 < d) (hlt : i + d < 2 ^ k) :
    ¬ i * (i + 1) / 2 ≡ (i + d) * (i + d + 1) / 2 [MOD 2 ^ k] := by
  intro h
  have hle : i * (i + 1) / 2 ≤ (i + d) * (i + d + 1) / 2 :=
    Nat.div_le_div_right (Nat.mul_le_mul (by omega) (by omega))
  have hdvd : 2 ^ (k + 1) ∣ d * (2 * i + d + 1) := by
    rw [← two_mul_triangle_sub, pow_succ']
    exact Nat.mul_dvd_mul_left 2 ((Nat.modEq_iff_dvd' hle).mp h)
  -- one factor is odd, so the whole power divides the other, which is too small
  rcases Nat.mod_two_eq_zero_or_one d with he | ho
  · have hcop : Nat.Coprime (2 ^ (k + 1)) (2 * i + d + 1) := coprime_two_pow (by omega) _
    have := Nat.le_of_dvd hd (hcop.dvd_of_dvd_mul_right hdvd)
    rw [pow_succ'] at this
    omega
  · have hcop : Nat.Coprime (2 ^ (k + 1)) d := coprime_two_pow ho _
    have := Nat.le_of_dvd (by omega) (hcop.dvd_of_dvd_mul_left hdvd)
    rw [pow_succ'] at this
    omega

theorem eq_of_triangle_modEq {k i j : Nat} (hi : i < 2 ^ k) (hj : j < 2 ^ k)
    (h : i * (i + 1) / 2 ≡ j * (j + 1) / 2 [MOD 2 ^ k]) : i = j := by
  rcases Nat.lt_trichotomy i j with hlt | heq | hlt
  · obtain ⟨d, rfl⟩ := Nat.exists_eq_add_of_lt hlt
    exact absurd h (not_triangle_modEq (Nat.succ_pos d) hj)
  · exact heq
  · obtain ⟨d, rfl⟩ := Nat.exists_eq_add_of_lt hlt
    exact absurd h.symm (not_triangle_modEq (Nat.succ_pos d) hi)

/-! ## The slots of a sequence -/

namespace Probe

variable (p : Probe) (hash : UInt64) {k capacity : Nat}

theorem step_mod_two : step hash capacity % 2 = 1 := by
  simp [step]

theorem offset_injOn {i j : Nat} (hi : i < 2 ^ k) (hj : j < 2 ^ k)
    (h : p.offset hash i (2 ^ k) ≡ p.offset hash j (2 ^ k) [MOD 2 ^ k]) : i = j := by
  cases p with
  | linear => exact eq_of_modEq_of_lt h hi hj
  | quadratic => exact eq_of_triangle_modEq hi hj h
  | double => exact eq_of_mul_odd_modEq (step_mod_two hash) hi hj h

/-- Different attempts examine different slots. -/
theorem slot_injOn {i j : Nat} (hi : i < 2 ^ k) (hj : j < 2 ^ k)
    (h : p.slot hash i (2 ^ k) = p.slot hash j (2 ^ k)) : i = j :=
  p.offset_injOn hash hi hj (Nat.ModEq.add_left_cancel' _ h)

/-- Every slot is examined on some attempt. -/
theorem exists_attempt {i : Nat} (hcap : capacity = 2 ^ k) (hi : i < capacity) :
    ∃ j < capacity, p.slot hash j capacity = i := by
  subst hcap
  have hmaps : ∀ j ∈ Finset.range (2 ^ k), p.slot hash j (2 ^ k) ∈ Finset.range (2 ^ k) :=
    fun j _ => Finset.mem_range.mpr (p.slot_lt hash j (Nat.two_pow_pos k))
  have hinj : Set.InjOn (fun j => p.slot hash j (2 ^ k)) (Finset.range (2 ^ k)) :=
    fun a ha b hb h => p.slot_injOn hash (by simpa using ha) (by simpa using hb) h
  obtain ⟨j, hj, rfl⟩ :=
    Finset.surjOn_of_injOn_of_card_le _ hmaps hinj le_rfl
      (Finset.mem_coe.mpr (Finset.mem_range.mpr hi))
  exact ⟨j, by simpa using hj, rfl⟩

end Probe

end TableEngine
