import TableEngine.Proofs.Checked.Chains
import TableEngine.Proofs.Checked.Slots
import TableEngine.Proofs.Store.Capacity

/-!
# No operation of a store panics

Under every strategy and after every list of calls, the next call goes through with all its
checks, as long as the capacity is at most `2 ^ 32` before and after it
(`checkedApply_run`) : a walk for a place finds one, the plan of a rebuild has a slot for
every entry, the slot of a removed key holds an entry, every index is below the length of
its array, and no number overflows a word. The answer and the store afterwards are those
of the call without checks.

A store that is reached is sound (`Store.sound_run`), so its backing array is placed as its
strategy wants it and within the bounds of its load. This is all that the operations
of either backing array need (`Sound.checkedInsert_eq`, `Sound.checkedGet?_eq`,
`Sound.checkedModify_eq`, `Sound.checkedRemove_eq`).
-/

set_option linter.unusedSectionVars false

namespace TableEngine.Store

open Checked

variable {K V : Type} [DecidableEq K] [StoreKey K]

/-- `insert`, with checks. -/
def checkedInsert (s : Store K V) (key : K) (value : V) : Checked (Store K V) :=
  match s with
  | chained s => do .ok (chained (← s.checkedInsert key value))
  | slotted p s => do .ok (slotted p (← s.checkedInsert key value))

/-- `get?`, with checks. -/
def checkedGet? (s : Store K V) (key : K) : Checked (Option V) :=
  match s with
  | chained s => s.checkedGet? key
  | slotted _ s => s.checkedGet? key

/-- `modify`, with checks. -/
def checkedModify (s : Store K V) (key : K) (f : V → V) : Checked (Store K V) :=
  match s with
  | chained s => do .ok (chained (← s.checkedModify key f))
  | slotted p s => do .ok (slotted p (← s.checkedModify key f))

/-- `remove`, with checks. -/
def checkedRemove (s : Store K V) (key : K) : Checked (Option V × Store K V) :=
  match s with
  | chained s => do
    let (value, s) ← s.checkedRemove key
    .ok (value, chained s)
  | slotted p s => do
    let (value, s) ← s.checkedRemove key
    .ok (value, slotted p s)

/-- `Keyed.apply`, with checks. -/
def checkedApply (s : Store K V) : Call K V → Checked (Reply V × Store K V)
  | .insert key value => do .ok (.done, ← s.checkedInsert key value)
  | .get key => do .ok (.value (← s.checkedGet? key), s)
  | .modify key f => do
    let value ← s.checkedGet? key
    .ok (.value value, ← s.checkedModify key f)
  | .contains key => do .ok (.present (← s.checkedGet? key).isSome, s)
  | .remove key => do
    let (value, s) ← s.checkedRemove key
    .ok (.value value, s)

namespace Sound

variable {s : Store K V} (h : s.Sound) (hcap : s.capacity ≤ 2 ^ 32) (key : K)
include h hcap

/-- An insertion computes with the capacity it leaves. -/
theorem checkedInsert_eq (value : V) (hafter : (s.insert key value).capacity ≤ 2 ^ 32) :
    s.checkedInsert key value = .ok (s.insert key value) := by
  rw [h.capacity_insert] at hafter
  have hload := h.load
  obtain ⟨m, hinv, -⟩ := h
  cases s with
  | chained s =>
    have heq := ChainStore.WellBucketed.checkedInsert_eq hinv key hload hcap value
    rw [checkedInsert, heq]
    rfl
  | slotted p s =>
    have heq := SlotStore.WellPlaced.checkedInsert_eq hinv hcap key hload hafter value
    rw [checkedInsert, heq]
    rfl

theorem checkedGet?_eq : s.checkedGet? key = .ok (s.get? key) := by
  obtain ⟨m, hinv, -⟩ := h
  cases s with
  | chained s => exact ChainStore.WellBucketed.checkedGet?_eq hinv key
  | slotted p s => exact SlotStore.WellPlaced.checkedGet?_eq hinv hcap key

theorem checkedModify_eq (f : V → V) : s.checkedModify key f = .ok (s.modify key f) := by
  obtain ⟨m, hinv, -⟩ := h
  cases s with
  | chained s =>
    have heq := ChainStore.WellBucketed.checkedModify_eq hinv key f
    rw [checkedModify, heq]
    rfl
  | slotted p s =>
    have heq := SlotStore.WellPlaced.checkedModify_eq hinv hcap key f
    rw [checkedModify, heq]
    rfl

theorem checkedRemove_eq : s.checkedRemove key = .ok (s.remove key) := by
  have hload := h.load
  obtain ⟨m, hinv, -⟩ := h
  cases s with
  | chained s =>
    have heq := ChainStore.WellBucketed.checkedRemove_eq hinv key hload hcap
    rw [checkedRemove, heq]
    rfl
  | slotted p s =>
    have heq := SlotStore.WellPlaced.checkedRemove_eq hinv hcap key hload
    rw [checkedRemove, heq]
    rfl

/-- On a sound store no call panics. -/
theorem checkedApply_eq (c : Call K V) (hafter : (Keyed.apply s c).2.capacity ≤ 2 ^ 32) :
    s.checkedApply c = .ok (Keyed.apply s c) := by
  have hget := h.checkedGet?_eq hcap
  cases c with
  | insert key value =>
    rw [checkedApply, h.checkedInsert_eq hcap key value hafter]
    rfl
  | get key =>
    rw [checkedApply, hget]
    rfl
  | modify key f =>
    rw [checkedApply, hget, bind_ok, h.checkedModify_eq hcap]
    rfl
  | contains key =>
    rw [checkedApply, hget]
    rfl
  | remove key =>
    rw [checkedApply, h.checkedRemove_eq hcap]
    rfl

end Sound

/-- After every list of calls the next call goes through with all its checks, if the
capacity is at most `2 ^ 32` before it and after it. -/
theorem checkedApply_run (σ : Strategy) (calls : List (Call K V)) (c : Call K V) :
    let s := (Keyed.run (empty σ : Store K V) calls).2
    s.capacity ≤ 2 ^ 32 → (Keyed.apply s c).2.capacity ≤ 2 ^ 32 →
      s.checkedApply c = .ok (Keyed.apply s c) := by
  intro s hbefore hafter
  exact (sound_run calls (sound_empty σ)).checkedApply_eq hbefore c hafter

/-- An array of twelve entries, one of them put where another was removed, doubles. -/
theorem checkedApply_run_quadratic :
    let calls : List (Call UInt8 Nat) :=
      (List.range 12).map (fun i => .insert i.toUInt8 i) ++ [.remove 3, .insert 12 12]
    let s := (Keyed.run (empty (.probing .quadratic) : Store UInt8 Nat) calls).2
    s.capacity = 16 ∧ (Keyed.apply s (.insert 3 0)).2.capacity = 32 ∧
      s.checkedApply (.insert 3 0) = .ok (Keyed.apply s (.insert 3 0)) := by
  intro calls s
  have hbefore : s.capacity = 16 := by decide +kernel
  have hafter : (Keyed.apply s (.insert 3 0)).2.capacity = 32 := by decide +kernel
  refine ⟨hbefore, hafter, checkedApply_run (.probing .quadratic) calls (.insert 3 0) ?_ ?_⟩
  · exact hbefore.trans_le (by decide)
  · exact hafter.trans_le (by decide)

end TableEngine.Store
