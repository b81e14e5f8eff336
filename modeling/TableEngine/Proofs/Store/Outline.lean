import TableEngine.Proofs.Chains.Bucket
import TableEngine.Store.Basic

/-!
# The outline of a store

The outline of a store (`Store.outline`) is the store with its values taken out : the same
array, with the same keys at the same places and, in a slot array, the same tombstones. What
does not depend on the values can be read off it, such as the list of the keys and its order
(`Store.keys_eq_of_outline`).

A change in place keeps the outline (`Store.outline_modify`). It needs no invariant for this :
whatever the walk for the key finds, only a value is written.
-/

namespace TableEngine

variable {K V : Type}

/-- A mapping that a change does not show under sees the array as it was. -/
theorem map_modify_of_eq {α β : Type} {g : α → β} {f : α → α} (h : ∀ a, g (f a) = g a)
    (xs : Array α) (i : Nat) : (xs.modify i f).map g = xs.map g := by
  refine Array.ext_getElem? fun j => ?_
  rw [Array.getElem?_map, Array.getElem?_map, Array.getElem?_modify]
  split
  · next hij =>
    rw [Option.map_map]
    exact congrArg (Option.map · xs[j]?) (funext h)
  · rfl

/-- An entry without its value. -/
def Entry.outline (e : Entry K V) : Entry K Unit := ⟨e.key, ()⟩

/-! ## Slot arrays -/

namespace Slot

/-- A slot without the value in it. -/
def outline : Slot K V → Slot K Unit
  | empty => .empty
  | occupied e => .occupied e.outline
  | tombstone => .tombstone

@[simp] theorem outline_mapValue (f : V → V) (u : Slot K V) :
    (u.mapValue f).outline = u.outline := by
  cases u <;> rfl

@[simp] theorem entry?_outline (u : Slot K V) : u.outline.entry? = u.entry?.map Entry.outline := by
  cases u <;> rfl

@[simp] theorem isTombstone_outline (u : Slot K V) : u.outline.isTombstone = u.isTombstone := by
  cases u <;> rfl

end Slot

namespace SlotStore

variable {p : Probe}

def outline (s : SlotStore p K V) : SlotStore p K Unit := ⟨s.slots.map Slot.outline, s.size⟩

@[simp] theorem keys_outline (s : SlotStore p K V) : s.outline.keys = s.keys := by
  have hentry : Slot.entry? ∘ Slot.outline = fun u : Slot K V => u.entry?.map Entry.outline :=
    funext Slot.entry?_outline
  rw [keys, keys, entries, entries, outline, Array.toList_map, List.filterMap_map, hentry,
    ← List.map_filterMap, List.map_map]
  rfl

@[simp] theorem tombstones_outline (s : SlotStore p K V) : s.outline.tombstones = s.tombstones := by
  have hmark : Slot.isTombstone ∘ Slot.outline = (Slot.isTombstone : Slot K V → Bool) :=
    funext Slot.isTombstone_outline
  rw [tombstones, outline, Array.countP_map, hmark]
  rfl

@[simp] theorem outline_modify [DecidableEq K] [StoreKey K] (s : SlotStore p K V) (key : K)
    (f : V → V) : (s.modify key f).outline = s.outline := by
  unfold modify
  split
  · rfl
  · next i _ => rw [outline, outline, map_modify_of_eq (Slot.outline_mapValue f)]

end SlotStore

/-! ## Bucket arrays -/

namespace ChainStore

def outline (s : ChainStore K V) : ChainStore K Unit :=
  ⟨s.buckets.map (List.map Entry.outline), s.size⟩

@[simp] theorem keys_outline (s : ChainStore K V) : s.outline.keys = s.keys := by
  rw [keys, keys, entries, entries, outline, Array.toList_map, ← List.map_flatten, List.map_map]
  rfl

theorem map_outline_mapValue [DecidableEq K] (key : K) (f : V → V) (chain : List (Entry K V)) :
    (mapValue key f chain).map Entry.outline = chain.map Entry.outline := by
  have hkeys : ∀ chain : List (Entry K V),
      chain.map Entry.outline = (chain.map Entry.key).map (⟨·, ()⟩) := fun chain => by
    rw [List.map_map]
    rfl
  rw [hkeys, map_key_mapValue, ← hkeys]

@[simp] theorem outline_modify [DecidableEq K] [StoreKey K] (s : ChainStore K V) (key : K)
    (f : V → V) : (s.modify key f).outline = s.outline := by
  rw [modify, outline, outline, map_modify_of_eq (map_outline_mapValue key f)]

end ChainStore

/-! ## Stores -/

namespace Store

/-- The store with its values taken out. -/
def outline : Store K V → Store K Unit
  | chained s => .chained s.outline
  | slotted p s => .slotted p s.outline

/-- The number of tombstones. Buckets have none. -/
def tombstones : Store K V → Nat
  | chained _ => 0
  | slotted _ s => s.tombstones

@[simp] theorem keys_outline (s : Store K V) : s.outline.keys = s.keys := by
  cases s with
  | chained s => exact s.keys_outline
  | slotted p s => exact s.keys_outline

@[simp] theorem size_outline (s : Store K V) : s.outline.size = s.size := by
  cases s <;> rfl

@[simp] theorem capacity_outline (s : Store K V) : s.outline.capacity = s.capacity := by
  cases s <;> exact Array.size_map

@[simp] theorem tombstones_outline (s : Store K V) : s.outline.tombstones = s.tombstones := by
  cases s with
  | chained s => rfl
  | slotted p s => exact s.tombstones_outline

section OfOutline

variable {s t : Store K V} (h : s.outline = t.outline)
include h

theorem keys_eq_of_outline : s.keys = t.keys := by
  rw [← keys_outline, h, keys_outline]

theorem size_eq_of_outline : s.size = t.size := by
  rw [← size_outline, h, size_outline]

theorem capacity_eq_of_outline : s.capacity = t.capacity := by
  rw [← capacity_outline, h, capacity_outline]

theorem tombstones_eq_of_outline : s.tombstones = t.tombstones := by
  rw [← tombstones_outline, h, tombstones_outline]

end OfOutline

@[simp] theorem outline_modify [DecidableEq K] [StoreKey K] (s : Store K V) (key : K)
    (f : V → V) : (s.modify key f).outline = s.outline := by
  cases s with
  | chained s => exact congrArg chained (s.outline_modify key f)
  | slotted p s => exact congrArg (slotted p) (s.outline_modify key f)

end Store

end TableEngine
