import TableEngine.Proofs.Store.Agreement
import TableEngine.Proofs.Store.Outline

/-!
# A store is its outline and its values

The outline of a store has every key at its place, and a look-up has the value. In a sound store a
look-up reads the array, so putting the values back where their keys are gives the store again, slot
for slot or bucket for bucket (`Store.Sound.restore_outline`). Two sound stores with one outline and
the same value under each key are therefore equal (`Store.Sound.eq_of_outline`).
-/

set_option linter.unusedSectionVars false

namespace TableEngine

variable {K V : Type}

/-- The entry of the key with the value that is found for it. -/
def Entry.restore (found : K → Option V) (e : Entry K Unit) : Option (Entry K V) :=
  (found e.key).map (⟨e.key, ·⟩)

theorem Entry.restore_outline {found : K → Option V} {e : Entry K V}
    (h : found e.key = some e.value) : e.outline.restore found = some e := by
  rw [restore, outline, h]
  rfl

/-! ## Slot arrays -/

namespace SlotStore

variable {p : Probe}

/-- Put the values back into a slot. -/
def restoreSlot (found : K → Option V) : Slot K Unit → Slot K V
  | .empty => .empty
  | .occupied e => ((e.restore found).map .occupied).getD .tombstone
  | .tombstone => .tombstone

def restore (s : SlotStore p K Unit) (found : K → Option V) : SlotStore p K V :=
  ⟨s.slots.map (restoreSlot found), s.size⟩

variable [DecidableEq K] [StoreKey K] {s : SlotStore p K V}

theorem WellPlaced.restore_outline (h : s.WellPlaced) : s.outline.restore s.get? = s := by
  have hslots : (s.slots.map Slot.outline).map (restoreSlot s.get?) = s.slots := by
    refine Array.ext_getElem? fun i => ?_
    rw [Array.getElem?_map, Array.getElem?_map]
    cases hi : s.slots[i]? with
    | none => rfl
    | some u =>
      cases u with
      | occupied e =>
        have hget : s.get? e.key = some e.value := h.get?_eq_some_iff.mpr ⟨i, hi⟩
        simp [Slot.outline, restoreSlot, Entry.restore_outline hget]
      | empty => rfl
      | tombstone => rfl
  rw [restore, outline, hslots]

end SlotStore

/-! ## Bucket arrays -/

namespace ChainStore

/-- Put the values back into the buckets. -/
def restore (s : ChainStore K Unit) (found : K → Option V) : ChainStore K V :=
  ⟨s.buckets.map (List.filterMap (Entry.restore found)), s.size⟩

variable [DecidableEq K] [StoreKey K] {s : ChainStore K V}

theorem WellBucketed.restore_outline (h : s.WellBucketed) : s.outline.restore s.get? = s := by
  have hbuckets : (s.buckets.map (List.map Entry.outline)).map
      (List.filterMap (Entry.restore s.get?)) = s.buckets := by
    refine Array.ext_getElem? fun i => ?_
    rw [Array.getElem?_map, Array.getElem?_map]
    cases hi : s.buckets[i]? with
    | none => rfl
    | some chain =>
      have hentry : ∀ e ∈ chain, (Entry.restore s.get? ∘ Entry.outline) e = some e := fun e he =>
        have hchain : chain ∈ s.buckets.toList :=
          Array.mem_toList_iff.mpr (Array.mem_of_getElem? hi)
        Entry.restore_outline (h.mem_entries_iff.mp (List.mem_flatten.mpr ⟨chain, hchain, he⟩))
      rw [Option.map_some, Option.map_some, List.filterMap_map, List.filterMap_congr hentry,
        List.filterMap_some]
  rw [restore, outline, hbuckets]

end ChainStore

/-! ## Stores -/

namespace Store

/-- Put the values back where their keys are. -/
def restore (s : Store K Unit) (found : K → Option V) : Store K V :=
  match s with
  | chained s => chained (s.restore found)
  | slotted p s => slotted p (s.restore found)

variable [DecidableEq K] [StoreKey K] {s t : Store K V}

namespace Sound

theorem restore_outline (h : s.Sound) : s.outline.restore s.get? = s := by
  obtain ⟨m, hinv, -⟩ := h
  cases s with
  | chained s => exact congrArg chained (ChainStore.WellBucketed.restore_outline hinv)
  | slotted p s => exact congrArg (slotted p) (SlotStore.WellPlaced.restore_outline hinv)

/-- Sound stores with the same keys at the same places and the same values are equal. -/
theorem eq_of_outline (hs : s.Sound) (ht : t.Sound) (houtline : s.outline = t.outline)
    (hget : ∀ key, s.get? key = t.get? key) : s = t := by
  rw [← hs.restore_outline, ← ht.restore_outline, houtline, funext hget]

end Sound

end Store

end TableEngine
