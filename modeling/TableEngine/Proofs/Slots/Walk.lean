import TableEngine.Proofs.Probe.Coverage
import TableEngine.Store.Slots

/-!
# Walks over a slot array

What the two walks for a key learn about the slots they pass. A slot is `Used` if a
walk goes on past it, and `Full` if it holds an entry.

* `findFrom` answers a slot that holds the key (`occupied_of_findFrom`), and does
  answer if the key stands behind used slots only (`findFrom_isSome`).
* `placeFrom` agrees with `findFrom` on whether the key is there
  (`findFrom_of_existing`, `findFrom_of_vacant`). For an absent key it answers the
  first slot of the sequence that is not full (`Vacancy`), which may be a tombstone
  seen long before the walk ends (`vacancy_of_placeFrom`), and it has an answer unless
  every slot it passes is full (`full_of_placeFrom_eq_none`).
-/

set_option linter.unusedSectionVars false

namespace TableEngine.SlotStore

variable {p : Probe} {K V : Type} {slots : Array (Slot K V)}

/-- A walk goes on past slot `i` : it holds an entry or a tombstone. -/
def Used (slots : Array (Slot K V)) (i : Nat) : Prop :=
  ∃ u, slots[i]? = some u ∧ u ≠ .empty

/-- Slot `i` holds an entry. -/
def Full (slots : Array (Slot K V)) (i : Nat) : Prop :=
  ∃ e, slots[i]? = some (.occupied e)

/-- Slot `i` is the first on the sequence of `hash` that holds no entry. -/
def Vacancy (p : Probe) (slots : Array (Slot K V)) (hash : UInt64) (i : Nat) : Prop :=
  i < slots.size ∧ ¬Full slots i ∧
    ∃ j < slots.size, p.slot hash j slots.size = i ∧
      ∀ j' < j, Full slots (p.slot hash j' slots.size)

theorem Full.used {i : Nat} (h : Full slots i) : Used slots i := by
  obtain ⟨e, he⟩ := h
  exact ⟨_, he, by simp⟩

/-- A statement about all attempts below `a` extends to attempt `a`. -/
theorem forall_lt_succ {P : Nat → Prop} {a : Nat} (h : ∀ j < a, P j) (ha : P a) :
    ∀ j < a + 1, P j := by
  intro j hj
  rcases Nat.lt_succ_iff_lt_or_eq.mp hj with hlt | rfl
  · exact h j hlt
  · exact ha

variable [DecidableEq K] [StoreKey K] {key : K} {hash : UInt64} {i : Nat}

/-! ## Looking a key up -/

/-- The slot found holds the key. -/
theorem occupied_of_findFrom : ∀ (left a : Nat), findFrom p slots key hash a left = some i →
    ∃ v, slots[i]? = some (.occupied ⟨key, v⟩)
  | 0, _, h => by simp [findFrom] at h
  | left + 1, a, h => by
    cases hs : slots[p.slot hash a slots.size]? with
    | none => simp [findFrom, hs] at h
    | some u =>
      cases u with
      | empty => simp [findFrom, hs] at h
      | tombstone => exact occupied_of_findFrom left (a + 1) (by simpa [findFrom, hs] using h)
      | occupied e =>
        by_cases hk : e.key = key
        · simp only [findFrom, hs, if_pos hk, Option.some.injEq] at h
          subst h hk
          exact ⟨e.value, hs⟩
        · exact occupied_of_findFrom left (a + 1) (by simpa [findFrom, hs, hk] using h)

/-- A key behind used slots only is found, here or in an earlier slot. -/
theorem findFrom_isSome : ∀ (left a : Nat) {j : Nat} {v : V}, a ≤ j → j < a + left →
    (∀ j', a ≤ j' → j' < j → Used slots (p.slot hash j' slots.size)) →
    slots[p.slot hash j slots.size]? = some (.occupied ⟨key, v⟩) →
    (findFrom p slots key hash a left).isSome
  | 0, a, j, v, haj, hj, _, _ => by omega
  | left + 1, a, j, v, haj, hj, hused, hkey => by
    rcases Nat.eq_or_lt_of_le haj with rfl | hlt
    · simp [findFrom, hkey]
    -- slot `a` is used, so the walk can stop there only with an answer
    · have ih := findFrom_isSome left (a + 1) hlt (by omega)
        (fun j' h h' => hused j' (by omega) h') hkey
      obtain ⟨u, hu, hne⟩ := hused a le_rfl hlt
      cases u with
      | empty => exact absurd rfl hne
      | tombstone => simpa [findFrom, hu] using ih
      | occupied e =>
        by_cases hk : e.key = key
        · simp [findFrom, hu, hk]
        · simpa [findFrom, hu, hk] using ih

/-! ## Looking for the place of a key -/

theorem findFrom_of_existing : ∀ (left a : Nat) {reusable : Option Nat},
    placeFrom p slots key hash a reusable left = some (.existing i) →
    findFrom p slots key hash a left = some i
  | 0, a, reusable, h => by simp [placeFrom] at h
  | left + 1, a, reusable, h => by
    cases hs : slots[p.slot hash a slots.size]? with
    | none => simp [placeFrom, hs] at h
    | some u =>
      cases u with
      | empty => simp [placeFrom, hs] at h
      | tombstone =>
        simp only [placeFrom, hs] at h
        simpa [findFrom, hs] using findFrom_of_existing left (a + 1) h
      | occupied e =>
        by_cases hk : e.key = key
        · simpa [placeFrom, findFrom, hs, hk] using h
        · simp only [placeFrom, hs, if_neg hk] at h
          simpa [findFrom, hs, hk] using findFrom_of_existing left (a + 1) h

theorem findFrom_of_vacant : ∀ (left a : Nat) {reusable : Option Nat},
    placeFrom p slots key hash a reusable left = some (.vacant i) →
    findFrom p slots key hash a left = none
  | 0, _, _, _ => rfl
  | left + 1, a, reusable, h => by
    cases hs : slots[p.slot hash a slots.size]? with
    | none => simp [findFrom, hs]
    | some u =>
      cases u with
      | empty => simp [findFrom, hs]
      | tombstone =>
        simp only [placeFrom, hs] at h
        simpa [findFrom, hs] using findFrom_of_vacant left (a + 1) h
      | occupied e =>
        by_cases hk : e.key = key
        · simp [placeFrom, hs, hk] at h
        · simp only [placeFrom, hs, if_neg hk] at h
          simpa [findFrom, hs, hk] using findFrom_of_vacant left (a + 1) h

/-- The slot a walk would answer if it ended here is the first that is not full : the
tombstone it remembers, or else the one it stands at. -/
theorem vacancy_getD {a : Nat} {reusable : Option Nat} (ha : a < slots.size)
    (hnone : reusable = none → ∀ j < a, Full slots (p.slot hash j slots.size))
    (hsome : ∀ r, reusable = some r → Vacancy p slots hash r)
    (hi : ¬Full slots (p.slot hash a slots.size)) :
    Vacancy p slots hash (reusable.getD (p.slot hash a slots.size)) := by
  cases reusable with
  | some r => exact hsome r rfl
  | none => exact ⟨p.slot_lt hash a (by omega), hi, a, ha, rfl, hnone rfl⟩

/-- The slot answered for an absent key is the first of its sequence that is not full.
What the walk remembers is a vacancy, or else all it has passed is full. -/
theorem vacancy_of_placeFrom : ∀ (left a : Nat) {reusable : Option Nat}, a + left = slots.size →
    (reusable = none → ∀ j < a, Full slots (p.slot hash j slots.size)) →
    (∀ r, reusable = some r → Vacancy p slots hash r) →
    placeFrom p slots key hash a reusable left = some (.vacant i) → Vacancy p slots hash i
  | 0, a, reusable, _, _, hsome, h => hsome i (by simpa [placeFrom] using h)
  | left + 1, a, reusable, ha, hnone, hsome, h => by
    cases hs : slots[p.slot hash a slots.size]? with
    | none => simp [placeFrom, hs] at h
    | some u =>
      cases u with
      | empty =>
        obtain rfl : reusable.getD (p.slot hash a slots.size) = i := by
          simpa [placeFrom, hs] using h
        exact vacancy_getD (by omega) hnone hsome (by simp [Full, hs])
      | tombstone =>
        simp only [placeFrom, hs] at h
        refine vacancy_of_placeFrom left (a + 1) (by omega) (by simp) (fun r hr => ?_) h
        cases hr
        exact vacancy_getD (by omega) hnone hsome (by simp [Full, hs])
      | occupied e =>
        by_cases hk : e.key = key
        · simp [placeFrom, hs, hk] at h
        · simp only [placeFrom, hs, if_neg hk] at h
          exact vacancy_of_placeFrom left (a + 1) (by omega)
            (fun hr => forall_lt_succ (hnone hr) ⟨e, hs⟩) hsome h

/-- A walk without an answer passes full slots only. -/
theorem full_of_placeFrom_eq_none : ∀ (left a : Nat) {reusable : Option Nat}, 0 < slots.size →
    placeFrom p slots key hash a reusable left = none →
    reusable = none ∧ ∀ j, a ≤ j → j < a + left → Full slots (p.slot hash j slots.size)
  | 0, a, reusable, _, h => ⟨by simpa [placeFrom] using h, by omega⟩
  | left + 1, a, reusable, hpos, h => by
    have hlt := p.slot_lt hash a hpos
    cases hs : slots[p.slot hash a slots.size]? with
    | none => exact absurd hlt (by simpa using hs)
    | some u =>
      cases u with
      | empty => simp [placeFrom, hs] at h
      | tombstone =>
        simp only [placeFrom, hs] at h
        exact absurd (full_of_placeFrom_eq_none left (a + 1) hpos h).1 (by simp)
      | occupied e =>
        by_cases hk : e.key = key
        · simp [placeFrom, hs, hk] at h
        · simp only [placeFrom, hs, if_neg hk] at h
          obtain ⟨hr, hfull⟩ := full_of_placeFrom_eq_none left (a + 1) hpos h
          refine ⟨hr, fun j hj hj' => ?_⟩
          rcases Nat.eq_or_lt_of_le hj with rfl | hlt
          · exact ⟨e, hs⟩
          · exact hfull j hlt (by omega)

end TableEngine.SlotStore
