import TableEngine.Proofs.Store.Keyed
import TableEngine.Proofs.Store.Load

/-!
# What can be seen of a store

A `View` keeps of a store the value under each key, the size and the capacity, but
not the order of the keys. It is a keyed store of its own, which grows and shrinks by
the rule of `TableEngine.Store.Load`.

`Viewed` says that the operations of a store show on its view as those of the view,
as long as an invariant holds. Such a store answers like a finite map
(`Viewed.simulation`), since a view does (`View.simulation`) : the load keeps its
bounds, and the size is that of the map.
-/

set_option linter.unusedSectionVars false

namespace TableEngine

/-- The value under each key, the number of entries and the capacity. -/
@[ext] structure View (K V : Type) where
  get? : K → Option V
  size : Nat
  capacity : Nat

namespace View

variable {K V : Type}

/-- Nothing stored, at the initial capacity. -/
def empty : View K V := ⟨fun _ => none, 0, initialCapacity⟩

/-- Double the capacity if the load asks for it. -/
def grown (v : View K V) : View K V := { v with capacity := grownCapacity v.size v.capacity }

/-- Halve the capacity if the load asks for it. -/
def shrunk (v : View K V) : View K V := { v with capacity := shrunkCapacity v.size v.capacity }

variable [DecidableEq K]

/-- Store a value, without looking at the load. -/
def write (v : View K V) (key : K) (value : V) : View K V where
  get? k := if k = key then some value else v.get? k
  size := if (v.get? key).isSome then v.size else v.size + 1
  capacity := v.capacity

def modify (v : View K V) (key : K) (f : V → V) : View K V :=
  { v with get? := fun k => if k = key then (v.get? key).map f else v.get? k }

/-- Take a stored key away, without looking at the load. -/
def erase (v : View K V) (key : K) : View K V where
  get? k := if k = key then none else v.get? k
  size := v.size - 1
  capacity := v.capacity

/-- The value under a key, and the view without it. -/
def remove (v : View K V) (key : K) : Option V × View K V :=
  match v.get? key with
  | some value => (some value, (v.erase key).shrunk)
  | none => (none, v)

instance : Keyed (View K V) K V where
  insert v key value := v.grown.write key value
  get? := View.get?
  modify := modify
  remove := remove

theorem remove_fst (v : View K V) (key : K) : (v.remove key).1 = v.get? key := by
  unfold remove
  cases v.get? key <;> rfl

theorem remove_of_some {v : View K V} {key : K} {value : V} (h : v.get? key = some value) :
    (v.remove key).2 = (v.erase key).shrunk := by
  simp [remove, h]

theorem remove_of_none {v : View K V} {key : K} (h : v.get? key = none) :
    (v.remove key).2 = v := by
  simp [remove, h]

/-! ## Stores that resize like a view -/

section Resizing

variable {S : Type} {Inv : S → Prop} (view : S → View K V) {s t : S}

/-- A rebuild at the doubled capacity, done if the load asks for it, shows as growth. -/
theorem grown_of_rebuild (hs : Inv s) (hr : needsGrow (view s).size (view s).capacity = true →
      Inv t ∧ view t = { view s with capacity := (view s).capacity * 2 }) :
    Inv (if needsGrow (view s).size (view s).capacity then t else s) ∧
      view (if needsGrow (view s).size (view s).capacity then t else s) = (view s).grown := by
  unfold grown grownCapacity
  split
  · next hg => exact hr hg
  · exact ⟨hs, rfl⟩

/-- A rebuild at the halved capacity, done if the load asks for it, shows as shrinking. -/
theorem shrunk_of_rebuild (hs : Inv s) (hr : needsShrink (view s).size (view s).capacity = true →
      Inv t ∧ view t = { view s with capacity := (view s).capacity / 2 }) :
    Inv (if needsShrink (view s).size (view s).capacity then t else s) ∧
      view (if needsShrink (view s).size (view s).capacity then t else s) = (view s).shrunk := by
  unfold shrunk shrunkCapacity
  split
  · next hg => exact hr hg
  · exact ⟨hs, rfl⟩

/-- Shrink what is left if a value was taken. -/
def thenShrink (shrink : S → S) : Option V × S → Option V × S
  | (some value, s) => (some value, shrink s)
  | (none, s) => (none, s)

/-- Taking a key and shrinking what is left shows as a removal. -/
theorem remove_of_take {shrink : S → S} {taken : Option V × S} {key : K} (hs : Inv s)
    (hnone : (view s).get? key = none → taken = (none, s))
    (hsome : ∀ value, (view s).get? key = some value → ∃ t, taken = (some value, t) ∧
      Inv (shrink t) ∧ view (shrink t) = ((view s).erase key).shrunk) :
    (thenShrink shrink taken).1 = (view s).get? key ∧ Inv (thenShrink shrink taken).2 ∧
      view (thenShrink shrink taken).2 = ((view s).remove key).2 := by
  cases hk : (view s).get? key with
  | none =>
    rw [hnone hk, remove_of_none hk]
    exact ⟨rfl, hs, rfl⟩
  | some value =>
    obtain ⟨t, ht, hinv, hview⟩ := hsome value hk
    rw [ht, remove_of_some hk]
    exact ⟨rfl, hinv, hview⟩

end Resizing

/-! ## Views and finite maps -/

/-- The view shows the finite map `m`, within the bounds of the load. -/
structure Shows (v : View K V) (m : Mapping K V) : Prop where
  get?_eq : ∀ k, v.get? k = m.lookup k
  size_eq : v.size = m.keys.card
  load : WithinLoad v.size v.capacity

theorem shows_empty : (empty : View K V).Shows ∅ :=
  ⟨fun _ => rfl, rfl, .initial⟩

namespace Shows

variable {v : View K V} {m : Mapping K V}

theorem isSome_iff (h : v.Shows m) (key : K) : (v.get? key).isSome ↔ key ∈ m.keys := by
  rw [h.get?_eq, Finmap.mem_keys, Finmap.lookup_isSome]

theorem insert (h : v.Shows m) (key : K) (value : V) :
    (v.grown.write key value).Shows (Finmap.insert key value m) where
  get?_eq k := by
    rw [Mapping.lookup_insert_eq, ← h.get?_eq]
    rfl
  size_eq := by
    have hkeys : (Finmap.insert key value m).keys = Insert.insert key m.keys := by
      ext k
      rw [Finmap.mem_keys, Finmap.mem_insert, Finset.mem_insert, Finmap.mem_keys]
    have hsize : (v.grown.write key value).size = if key ∈ m.keys then v.size else v.size + 1 :=
      if_congr (h.isSome_iff key) rfl rfl
    rw [hkeys, hsize, h.size_eq]
    split
    · next hk => rw [Finset.insert_eq_of_mem hk]
    · next hk => rw [Finset.card_insert_of_notMem hk]
  load := h.load.grown (ite_eq_or_eq _ _ _)

theorem size_pos (h : v.Shows m) {key : K} {value : V} (hk : v.get? key = some value) :
    0 < v.size := by
  have hmem : key ∈ m.keys := (h.isSome_iff key).mp (by rw [hk]; rfl)
  exact h.size_eq ▸ Finset.card_pos.mpr ⟨key, hmem⟩

theorem modify (h : v.Shows m) (key : K) (f : V → V) :
    (v.modify key f).Shows (Mapping.modify m key f) where
  get?_eq k := by
    rw [Mapping.lookup_modify, ← h.get?_eq, ← h.get?_eq]
    rfl
  size_eq := by
    rw [Mapping.keys_modify]
    exact h.size_eq
  load := h.load

theorem remove (h : v.Shows m) (key : K) : (v.remove key).2.Shows (Finmap.erase key m) := by
  cases hk : v.get? key with
  | none =>
    have hm : Finmap.erase key m = m := Finmap.ext_lookup fun k => by
      rw [Mapping.lookup_erase_eq]
      split
      · next he => rw [he, ← h.get?_eq, hk]
      · rfl
    rwa [remove_of_none hk, hm]
  | some value =>
    have hmem : key ∈ m.keys := (h.isSome_iff key).mp (by rw [hk]; rfl)
    have hpos := h.size_pos hk
    rw [remove_of_some hk]
    refine ⟨fun k => ?_, ?_, ?_⟩
    · rw [Mapping.lookup_erase_eq, ← h.get?_eq]
      rfl
    · rw [Finmap.keys_erase, Finset.card_erase_of_mem hmem, ← h.size_eq]
      rfl
    -- the bounds hold of the size before the removal, one more than the size now
    · have hload : WithinLoad (v.size - 1 + 1) v.capacity := by
        rw [Nat.sub_add_cancel hpos]
        exact h.load
      exact hload.shrunk

end Shows

theorem simulation : Simulation (Shows : View K V → Mapping K V → Prop) where
  get? h k := h.get?_eq k
  insert h key value := h.insert key value
  modify h key f := h.modify key f
  removed {v _} h key := (v.remove_fst key).trans (h.get?_eq key)
  remove h key := h.remove key

end View

/-! ## Stores with a view -/

/-- The operations of a store keep the invariant `Inv` and show on the view as those of
the view, while the load of the view is in bounds. -/
structure Viewed {S K V : Type} [DecidableEq K] [Keyed S K V] (Inv : S → Prop)
    (view : S → View K V) : Prop where
  get? : ∀ s k, Keyed.get? s k = (view s).get? k
  insert : ∀ {s}, Inv s → WithinLoad (view s).size (view s).capacity → ∀ key value,
    Inv (Keyed.insert s key value) ∧
      view (Keyed.insert s key value) = Keyed.insert (view s) key value
  modify : ∀ {s}, Inv s → ∀ key f,
    Inv (Keyed.modify s key f) ∧ view (Keyed.modify s key f) = Keyed.modify (view s) key f
  remove : ∀ {s}, Inv s → WithinLoad (view s).size (view s).capacity → ∀ key,
    (Keyed.remove s key).1 = (view s).get? key ∧ Inv (Keyed.remove s key).2 ∧
      view (Keyed.remove s key).2 = (Keyed.remove (view s) key).2

namespace Viewed

variable {S K V : Type} [DecidableEq K] [Keyed S K V] {Inv : S → Prop} {view : S → View K V}

/-- A store with a view answers like the finite map that its view shows. -/
theorem simulation (h : Viewed Inv view) :
    Simulation fun (s : S) (m : Mapping K V) => Inv s ∧ (view s).Shows m where
  get? {s m} hs k := (h.get? s k).trans (hs.2.get?_eq k)
  insert {s m} hs key value := by
    obtain ⟨hinv, hview⟩ := h.insert hs.1 hs.2.load key value
    exact ⟨hinv, hview ▸ View.simulation.insert hs.2 key value⟩
  modify {s m} hs key f := by
    obtain ⟨hinv, hview⟩ := h.modify hs.1 key f
    exact ⟨hinv, hview ▸ View.simulation.modify hs.2 key f⟩
  removed {s m} hs key := (h.remove hs.1 hs.2.load key).1.trans (hs.2.get?_eq key)
  remove {s m} hs key := by
    obtain ⟨-, hinv, hview⟩ := h.remove hs.1 hs.2.load key
    exact ⟨hinv, hview ▸ View.simulation.remove hs.2 key⟩

end Viewed

end TableEngine
