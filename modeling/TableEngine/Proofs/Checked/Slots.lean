import TableEngine.Proofs.Checked.Word
import TableEngine.Proofs.Slots.FiniteMap

/-!
# Slot arrays with checks

The operations of a slot array, with every access to the array and every number checked,
and a panic in each place that the load rule is meant to exclude : a walk that finds no
slot, and a removal that finds no entry.

On a well placed array within the bounds of its load, of at most `2 ^ 32` slots before and
after, each of them ends with what the unchecked operation does (`checkedInsert_eq`,
`checkedGet?_eq`, `checkedModify_eq`, `checkedRemove_eq`). The walks read the array where
the slot formulas point, which is inside it. A walk for a place, or a plan, panics if and
only if it has no answer (`checkedPlace_eq`, `checkedPlan_eq`), and a well placed array
with room has one.
-/

set_option linter.unusedSectionVars false

namespace TableEngine

open Checked

/-! ## Planning a rebuild -/

section Plan

variable (p : Probe) {taken : Array Bool} {hash : UInt64}

/-- `firstFree`, with checks. -/
def checkedFirstFree (taken : Array Bool) (hash : UInt64) (attempt : Nat) : Nat → Checked Nat
  | 0 => .error .noFreeSlot
  | left + 1 => do
    let i ← p.checkedSlot hash attempt taken.size
    if ← read taken i then checkedFirstFree taken hash (attempt + 1) left else .ok i

/-- `planFrom`, with checks. -/
def checkedPlanFrom (taken : Array Bool) : List UInt64 → Checked (List Nat)
  | [] => .ok []
  | hash :: rest => do
    let i ← checkedFirstFree p taken hash 0 taken.size
    let taken ← write taken i true
    let places ← checkedPlanFrom taken rest
    .ok (i :: places)

/-- `plan`, with checks. -/
def checkedPlan (hashes : List UInt64) (capacity : Nat) : Checked (List Nat) :=
  checkedPlanFrom p (Array.replicate capacity false) hashes

theorem checkedFirstFree_eq (hsize : taken.size ≤ 2 ^ 32) : ∀ left attempt,
    attempt + left ≤ taken.size →
    checkedFirstFree p taken hash attempt left =
      found (firstFree p taken hash attempt left) .noFreeSlot
  | 0, _, _ => rfl
  | left + 1, attempt, hle => by
    have hlt : attempt < taken.size := by omega
    have hslot : p.slot hash attempt taken.size < taken.size := p.slot_lt hash attempt (by omega)
    have hread := Array.getElem?_eq_getElem hslot
    simp only [checkedFirstFree, firstFree, p.checkedSlot_eq hash hlt hsize, bind_ok,
      read_eq hread, Array.getD_eq_getD_getElem?, hread, Option.getD_some]
    split
    · exact checkedFirstFree_eq hsize left (attempt + 1) (by omega)
    · rfl

theorem lt_of_firstFree {i : Nat} : ∀ {left attempt : Nat},
    firstFree p taken hash attempt left = some i → i < taken.size
  | left + 1, attempt, h => by
    simp only [firstFree, Array.getD_eq_getD_getElem?] at h
    split at h
    · exact lt_of_firstFree h
    · next hfree =>
      by_contra hge
      rw [Option.some.inj h, Array.getElem?_eq_none (by omega)] at hfree
      exact hfree rfl

theorem checkedPlanFrom_eq : ∀ (hashes : List UInt64) (taken : Array Bool),
    taken.size ≤ 2 ^ 32 →
    checkedPlanFrom p taken hashes = found (planFrom p taken hashes) .noFreeSlot
  | [], _, _ => rfl
  | hash :: rest, taken, hsize => by
    rw [checkedPlanFrom, planFrom, checkedFirstFree_eq p hsize _ _ (by omega)]
    cases hi : firstFree p taken hash 0 taken.size with
    | none => rfl
    | some i =>
      have ih := checkedPlanFrom_eq rest (taken.setIfInBounds i true)
        (by rwa [Array.size_setIfInBounds])
      simp only [found, bind_ok, write_eq (lt_of_firstFree p hi), ih]
      cases planFrom p (taken.setIfInBounds i true) rest <;> rfl

/-- A plan panics if and only if it has no answer. -/
theorem checkedPlan_eq (hashes : List UInt64) {capacity : Nat} (hcap : capacity ≤ 2 ^ 32) :
    checkedPlan p hashes capacity = found (plan p hashes capacity) .noFreeSlot :=
  checkedPlanFrom_eq p hashes _ (by rwa [Array.size_replicate])

theorem lt_of_planFrom : ∀ {hashes : List UInt64} {taken : Array Bool} {places : List Nat},
    planFrom p taken hashes = some places → ∀ i ∈ places, i < taken.size
  | [], _, _, h, i, hi => by
    obtain rfl := Option.some.inj h
    cases hi
  | hash :: rest, taken, places, h, i, hi => by
    simp only [planFrom] at h
    split at h
    · cases h
    · next j hj =>
      obtain ⟨places, hplaces, rfl⟩ := Option.map_eq_some_iff.mp h
      rcases List.mem_cons.mp hi with rfl | hi
      · exact lt_of_firstFree p hj
      · simpa using lt_of_planFrom hplaces i hi

end Plan

namespace SlotStore

variable {p : Probe} {K V : Type} {slots : Array (Slot K V)}

/-- `fill`, with checks. -/
def checkedFill (slots : Array (Slot K V)) :
    List (Entry K V × Nat) → Checked (Array (Slot K V))
  | [] => .ok slots
  | (e, i) :: rest => do checkedFill (← Checked.write slots i (.occupied e)) rest

theorem checkedFill_eq : ∀ (slots : Array (Slot K V)) (entries : List (Entry K V))
    (places : List Nat), (∀ i ∈ places, i < slots.size) →
    checkedFill slots (entries.zip places) = .ok (fill slots entries places)
  | _, [], _, _ => rfl
  | _, _ :: _, [], _ => rfl
  | slots, e :: entries, i :: places, h => by
    have ih := checkedFill_eq (slots.setIfInBounds i (.occupied e)) entries places
      fun j hj => by simpa using h j (by simp [hj])
    rw [List.zip_cons_cons, checkedFill, write_eq (h i (by simp)), bind_ok, ih]
    rfl

variable [DecidableEq K] [StoreKey K]

/-! ## Walks -/

/-- `findFrom`, with checks. -/
def checkedFindFrom (p : Probe) (slots : Array (Slot K V)) (key : K) (hash : UInt64)
    (attempt : Nat) : Nat → Checked (Option Nat)
  | 0 => .ok none
  | left + 1 => do
    let i ← p.checkedSlot hash attempt slots.size
    match ← read slots i with
    | .empty => .ok none
    | .tombstone => checkedFindFrom p slots key hash (attempt + 1) left
    | .occupied e =>
      if e.key = key then .ok (some i) else checkedFindFrom p slots key hash (attempt + 1) left

/-- `placeFrom`, with checks. -/
def checkedPlaceFrom (p : Probe) (slots : Array (Slot K V)) (key : K) (hash : UInt64)
    (attempt : Nat) (reusable : Option Nat) : Nat → Checked Placement
  | 0 =>
    match reusable with
    | some i => .ok (.vacant i)
    | none => .error .noFreeSlot
  | left + 1 => do
    let i ← p.checkedSlot hash attempt slots.size
    match ← read slots i with
    | .empty => .ok (.vacant (reusable.getD i))
    | .tombstone => checkedPlaceFrom p slots key hash (attempt + 1) (some (reusable.getD i)) left
    | .occupied e =>
      if e.key = key then .ok (.existing i)
      else checkedPlaceFrom p slots key hash (attempt + 1) reusable left

variable {key : K} {hash : UInt64}

theorem exists_getElem?_slot (hash : UInt64) {attempt : Nat} (hlt : attempt < slots.size) :
    ∃ u, slots[p.slot hash attempt slots.size]? = some u :=
  ⟨_, Array.getElem?_eq_getElem (p.slot_lt hash attempt (by omega))⟩

theorem checkedFindFrom_eq (hsize : slots.size ≤ 2 ^ 32) : ∀ left attempt,
    attempt + left ≤ slots.size → checkedFindFrom p slots key hash attempt left =
      .ok (findFrom p slots key hash attempt left)
  | 0, _, _ => rfl
  | left + 1, attempt, hle => by
    have hlt : attempt < slots.size := by omega
    have ih := checkedFindFrom_eq hsize left (attempt + 1) (by omega)
    obtain ⟨u, hu⟩ := exists_getElem?_slot (p := p) hash hlt
    simp only [checkedFindFrom, findFrom, p.checkedSlot_eq hash hlt hsize, bind_ok, read_eq hu,
      hu, ih]
    cases u with
    | empty => rfl
    | tombstone => rfl
    | occupied e =>
      simp only
      split <;> rfl

theorem checkedPlaceFrom_eq (hsize : slots.size ≤ 2 ^ 32) : ∀ left attempt reusable,
    attempt + left ≤ slots.size → checkedPlaceFrom p slots key hash attempt reusable left =
      found (placeFrom p slots key hash attempt reusable left) .noFreeSlot
  | 0, _, reusable, _ => by cases reusable <;> rfl
  | left + 1, attempt, reusable, hle => by
    have hlt : attempt < slots.size := by omega
    have ih := fun reusable => checkedPlaceFrom_eq hsize left (attempt + 1) reusable (by omega)
    obtain ⟨u, hu⟩ := exists_getElem?_slot (p := p) hash hlt
    simp only [checkedPlaceFrom, placeFrom, p.checkedSlot_eq hash hlt hsize, bind_ok, read_eq hu,
      hu, ih]
    cases u with
    | empty => rfl
    | tombstone => rfl
    | occupied e =>
      simp only
      split <;> rfl

/-- `find?`, with checks. -/
def checkedFind? (s : SlotStore p K V) (key : K) : Checked (Option Nat) :=
  checkedFindFrom p s.slots key (StoreKey.hash key) 0 s.slots.size

/-- `place`, with checks. -/
def checkedPlace (s : SlotStore p K V) (key : K) : Checked Placement :=
  checkedPlaceFrom p s.slots key (StoreKey.hash key) 0 none s.slots.size

section Walks

variable {s : SlotStore p K V} (hcap : s.capacity ≤ 2 ^ 32) (key : K)
include hcap

theorem checkedFind?_eq : s.checkedFind? key = .ok (s.find? key) :=
  checkedFindFrom_eq hcap _ _ (by omega)

/-- A walk for a place panics if and only if it has no answer. -/
theorem checkedPlace_eq : s.checkedPlace key = found (s.place key) .noFreeSlot :=
  checkedPlaceFrom_eq hcap _ _ _ (by omega)

end Walks

/-! ## Operations -/

/-- `rebuild`, with checks. -/
def checkedRebuild (s : SlotStore p K V) (capacity : Nat) : Checked (SlotStore p K V) := do
  let capacity := max capacity initialCapacity
  let places ← checkedPlan p (s.entries.map fun e => StoreKey.hash e.key) capacity
  let slots ← checkedFill (Array.replicate capacity .empty) (s.entries.zip places)
  .ok { s with slots }

/-- `grown`, with checks. -/
def checkedGrown (s : SlotStore p K V) : Checked (SlotStore p K V) :=
  growing s.size s.slots.size s s.checkedRebuild

/-- `shrunk`, with checks. -/
def checkedShrunk (s : SlotStore p K V) : Checked (SlotStore p K V) :=
  shrinking s.size s.slots.size s s.checkedRebuild

/-- `write`, with checks. -/
def checkedWrite (s : SlotStore p K V) (key : K) (value : V) : Checked (SlotStore p K V) := do
  match ← s.checkedPlace key with
  | .existing i =>
    let slots ← Checked.write s.slots i (.occupied ⟨key, value⟩)
    .ok { s with slots }
  | .vacant i =>
    let slots ← Checked.write s.slots i (.occupied ⟨key, value⟩)
    .ok ⟨slots, ← word (s.size + 1)⟩

/-- `insert`, with checks. -/
def checkedInsert (s : SlotStore p K V) (key : K) (value : V) : Checked (SlotStore p K V) := do
  (← s.checkedGrown).checkedWrite key value

/-- `get?`, with checks. -/
def checkedGet? (s : SlotStore p K V) (key : K) : Checked (Option V) := do
  match ← s.checkedFind? key with
  | none => .ok none
  | some i => .ok ((Slot.entry? (← read s.slots i)).map Entry.value)

/-- `modify`, with checks. -/
def checkedModify (s : SlotStore p K V) (key : K) (f : V → V) : Checked (SlotStore p K V) := do
  match ← s.checkedFind? key with
  | none => .ok s
  | some i => .ok { s with slots := ← change s.slots i (Slot.mapValue f) }

/-- `remove`, with checks. -/
def checkedRemove (s : SlotStore p K V) (key : K) : Checked (Option V × SlotStore p K V) := do
  match ← s.checkedFind? key with
  | none => .ok (none, s)
  | some i =>
    match ← read s.slots i with
    | .occupied e =>
      let slots ← Checked.write s.slots i .tombstone
      let size ← sub s.size 1
      .ok (some e.value, ← checkedShrunk ⟨slots, size⟩)
    | _ => .error .noEntry

namespace WellPlaced

variable {s : SlotStore p K V} (h : s.WellPlaced)
include h

theorem checkedRebuild_eq {capacity : Nat} (hd : ∃ k, capacity = initialCapacity * 2 ^ k)
    (hcap : capacity ≤ 2 ^ 32) (hroom : s.size ≤ capacity) :
    s.checkedRebuild capacity = .ok (s.rebuild capacity) := by
  obtain ⟨places, hplan, -⟩ := h.exists_plan (two_pow_of_doubled hd) hroom
  have hplaces : ∀ i ∈ places, i < (Array.replicate capacity (Slot.empty : Slot K V)).size := by
    simpa using lt_of_planFrom p hplan
  simp only [checkedRebuild, rebuild, Nat.max_eq_left (initial_le_of_doubled hd),
    checkedPlan_eq p _ hcap, hplan, found, bind_ok, checkedFill_eq _ _ _ hplaces]

/-! ### Growing and shrinking -/

theorem checkedGrown_eq (hload : WithinLoad s.size s.capacity) (hcap : s.capacity ≤ 2 ^ 32)
    (hgrown : grownCapacity s.size s.capacity ≤ 2 ^ 32) : s.checkedGrown = .ok s.grown := by
  refine growing_eq hload.atMost hcap fun hg => ?_
  obtain ⟨hd, hroom⟩ := hload.doubled_of_needsGrow hg
  rw [show grownCapacity s.size s.capacity = s.slots.size * 2 from if_pos hg] at hgrown
  exact h.checkedRebuild_eq hd hgrown hroom.le

theorem checkedShrunk_eq (hd : ∃ k, s.capacity = initialCapacity * 2 ^ k)
    (hle : s.size ≤ s.capacity) (hcap : s.capacity ≤ 2 ^ 32) :
    s.checkedShrunk = .ok s.shrunk := by
  refine shrinking_eq hle hcap fun hs => ?_
  obtain ⟨hds, hroom⟩ := doubled_of_needsShrink hd hs
  exact h.checkedRebuild_eq hds ((Nat.div_le_self _ 2).trans hcap) hroom

/-! ### The operations -/

variable (hcap : s.capacity ≤ 2 ^ 32) (key : K)
include hcap

/-- On an array with room a walk for a place ends. -/
theorem checkedWrite_eq (hpow : ∃ k, s.capacity = 2 ^ k) (hroom : s.size < s.capacity)
    (value : V) : s.checkedWrite key value = .ok (s.write key value) := by
  have hsize : s.slots.size ≤ 2 ^ 32 := hcap
  have hroom' : s.size < s.slots.size := hroom
  rcases h.exists_placement hpow hroom key with ⟨i, v, hplace, hv⟩ | ⟨i, hplace, -, hvacancy⟩
  · have hi := (Array.getElem?_eq_some_iff.mp hv).1
    simp only [checkedWrite, SlotStore.write, checkedPlace_eq hcap, hplace, found, bind_ok,
      write_eq hi]
  · simp only [checkedWrite, SlotStore.write, checkedPlace_eq hcap, hplace, found, bind_ok,
      write_eq hvacancy.1, word_eq (show s.size + 1 < 2 ^ 64 by omega)]

theorem checkedInsert_eq (hload : WithinLoad s.size s.capacity)
    (hgrown : grownCapacity s.size s.capacity ≤ 2 ^ 32) (value : V) :
    s.checkedInsert key value = .ok (s.insert key value) := by
  obtain ⟨hplaced, hview⟩ := h.view_grown hload
  have hsize : s.grown.size = s.size := congrArg View.size hview
  have hcapacity : s.grown.capacity = grownCapacity s.size s.capacity :=
    congrArg View.capacity hview
  have hpow := two_pow_of_doubled (doubled_grownCapacity s.size hload.doubled)
  have hroom := hload.size_lt_grownCapacity
  rw [← hcapacity] at hpow hroom
  rw [checkedInsert, h.checkedGrown_eq hload hcap hgrown, bind_ok]
  exact hplaced.checkedWrite_eq (hcapacity ▸ hgrown) key hpow (hsize ▸ hroom) value

theorem checkedGet?_eq : s.checkedGet? key = .ok (s.get? key) := by
  simp only [checkedGet?, SlotStore.get?, checkedFind?_eq hcap, bind_ok]
  cases hf : s.find? key with
  | none => rfl
  | some i =>
    obtain ⟨v, hv⟩ := h.find?_eq_some_iff.mp hf
    simp only [read_eq hv, bind_ok, hv, Option.bind_some]

theorem checkedModify_eq (f : V → V) : s.checkedModify key f = .ok (s.modify key f) := by
  simp only [checkedModify, SlotStore.modify, checkedFind?_eq hcap, bind_ok]
  cases hf : s.find? key with
  | none => rfl
  | some i =>
    obtain ⟨v, hv⟩ := h.find?_eq_some_iff.mp hf
    have hi := (Array.getElem?_eq_some_iff.mp hv).1
    simp only [change_eq hi, bind_ok]

/-- The slot that a walk finds holds an entry, so a removal goes through. -/
theorem checkedRemove_eq (hload : WithinLoad s.size s.capacity) :
    s.checkedRemove key = .ok (s.remove key) := by
  have hle := hload.atMost
  simp only [checkedRemove, SlotStore.remove, SlotStore.vacate, checkedFind?_eq hcap, bind_ok]
  cases hf : s.find? key with
  | none => rfl
  | some i =>
    obtain ⟨v, hv⟩ := h.find?_eq_some_iff.mp hf
    have hi := (Array.getElem?_eq_some_iff.mp hv).1
    have hcapacity : (⟨s.slots.setIfInBounds i .tombstone, s.size - 1⟩ :
        SlotStore p K V).capacity = s.capacity := Array.size_setIfInBounds
    have hshrunk := (h.bury hv).checkedShrunk_eq (hcapacity ▸ hload.doubled)
      (by rw [hcapacity]; show s.size - 1 ≤ s.capacity; omega) (hcapacity ▸ hcap)
    simp only [read_eq hv, bind_ok, write_eq hi, sub_eq (h.size_pos hv), hshrunk, hv]

end WellPlaced

end SlotStore

end TableEngine
