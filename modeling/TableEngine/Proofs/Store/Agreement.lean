import TableEngine.Proofs.Chains.FiniteMap
import TableEngine.Proofs.Slots.FiniteMap

/-!
# Stores of different strategies agree

Two stores agree (`Store.Agree`) if both are sound and show the same view : the same
value under each key, the same size and the same capacity. They may list their keys in
different orders (`Store.Agree.perm_keys`).

What the same calls do to agreeing stores leaves them in agreement, and so does a list
of changes in place, or of removals, made in two different orders
(`View.modifyAll_perm`, `View.removeAll_perm`). The removals need a look at the
capacity : it may halve on the way, but when it does depends only on how many entries
are left.
-/

set_option linter.unusedSectionVars false

namespace TableEngine

variable {K V : Type} [DecidableEq K]

/-! ## Many changes in any order -/

namespace View

variable (v : View K V)

/-- Change the value under each of the keys. -/
def modifyAll (f : V → V) (keys : List K) : View K V := keys.foldl (fun v key => v.modify key f) v

/-- Remove each of the keys. -/
def removeAll (keys : List K) : View K V := keys.foldl (fun v key => (v.remove key).2) v

theorem get?_remove (key k : K) :
    (v.remove key).2.get? k = if k = key then none else v.get? k := by
  cases hk : v.get? key with
  | none =>
    rw [remove_of_none hk]
    split
    · next he => rw [he, hk]
    · rfl
  | some value =>
    rw [remove_of_some hk]
    rfl

variable {v} in
theorem modify_of_none {key : K} (hk : v.get? key = none) (f : V → V) : v.modify key f = v := by
  refine View.ext (funext fun k => ?_) rfl rfl
  simp only [modify, hk, Option.map_none]
  split
  · next he => rw [he, hk]
  · rfl

theorem isSome_modify (key : K) (f : V → V) (k : K) :
    ((v.modify key f).get? k).isSome = (v.get? k).isSome := by
  simp only [modify]
  split
  · next he => rw [he, Option.isSome_map]
  · rfl

theorem modify_comm (f : V → V) (k l : K) :
    (v.modify k f).modify l f = (v.modify l f).modify k f := by
  refine View.ext (funext fun x => ?_) rfl rfl
  simp only [modify]
  rcases eq_or_ne k l with rfl | hkl
  · rfl
  · by_cases hxk : x = k <;> by_cases hxl : x = l <;> simp_all

theorem remove_comm (k l : K) : ((v.remove k).2.remove l).2 = ((v.remove l).2.remove k).2 := by
  rcases eq_or_ne k l with rfl | hkl
  · rfl
  cases hk : v.get? k with
  | none =>
    have hk' : (v.remove l).2.get? k = none := by rw [get?_remove, if_neg hkl, hk]
    rw [remove_of_none hk, remove_of_none hk']
  | some a =>
    cases hl : v.get? l with
    | none =>
      have hl' : (v.remove k).2.get? l = none := by rw [get?_remove, if_neg hkl.symm, hl]
      rw [remove_of_none hl, remove_of_none hl']
    | some b =>
      have hk' : (v.remove l).2.get? k = some a := by rw [get?_remove, if_neg hkl, hk]
      have hl' : (v.remove k).2.get? l = some b := by rw [get?_remove, if_neg hkl.symm, hl]
      rw [remove_of_some hk', remove_of_some hl', remove_of_some hk, remove_of_some hl]
      -- the capacities agree by `rfl` : each depends on the sizes alone
      refine View.ext (funext fun x => ?_) rfl rfl
      show (if x = l then none else if x = k then none else v.get? x) =
        if x = k then none else if x = l then none else v.get? x
      split <;> split <;> rfl

variable {keys keys' : List K}

theorem modifyAll_perm (f : V → V) (hp : keys.Perm keys') :
    v.modifyAll f keys = v.modifyAll f keys' :=
  hp.foldl_eq' (fun k _ l _ v => v.modify_comm f k l) v

theorem removeAll_perm (hp : keys.Perm keys') : v.removeAll keys = v.removeAll keys' :=
  hp.foldl_eq' (fun k _ l _ v => v.remove_comm k l) v

end View

/-! ## Sound stores -/

namespace Store

variable [StoreKey K]

instance : Keyed (Store K V) K V where
  insert := Store.insert
  get? := Store.get?
  modify := Store.modify
  remove := Store.remove

/-- What can be seen of the store apart from the order of its keys. -/
def view (s : Store K V) : View K V := ⟨s.get?, s.size, s.capacity⟩

/-- The invariant of the backing array. -/
def Inv : Store K V → Prop
  | chained s => s.WellBucketed
  | slotted _ s => s.WellPlaced

theorem viewed : Viewed (Inv (K := K) (V := V)) view where
  get? _ _ := rfl
  insert {s} h hload key value := by
    cases s with
    | chained s => exact ChainStore.viewed.insert h hload key value
    | slotted p s => exact SlotStore.viewed.insert h hload key value
  modify {s} h key f := by
    cases s with
    | chained s => exact ChainStore.viewed.modify h key f
    | slotted p s => exact SlotStore.viewed.modify h key f
  remove {s} h hload key := by
    cases s with
    | chained s => exact ChainStore.viewed.remove h hload key
    | slotted p s => exact SlotStore.viewed.remove h hload key

/-- The invariant holds, and the store shows a finite map. -/
def Sound (s : Store K V) : Prop := ∃ m : Mapping K V, s.Inv ∧ s.view.Shows m

theorem view_empty (σ : Strategy) : (empty σ : Store K V).view = .empty := by
  cases σ with
  | chaining => exact ChainStore.view_blank initialCapacity
  | probing p => exact SlotStore.view_blank (p := p) initialCapacity

theorem sound_empty (σ : Strategy) : (empty σ : Store K V).Sound := by
  refine ⟨∅, ?_⟩
  cases σ with
  | chaining => exact ChainStore.shows_empty
  | probing p => exact SlotStore.shows_empty (p := p)

namespace Sound

variable {s : Store K V} (h : s.Sound) (key : K)
include h

theorem insert (value : V) :
    (s.insert key value).Sound ∧ (s.insert key value).view = s.view.grown.write key value := by
  obtain ⟨m, hm⟩ := h
  exact ⟨⟨_, viewed.simulation.insert hm key value⟩, (viewed.insert hm.1 hm.2.load key value).2⟩

theorem modify (f : V → V) :
    (s.modify key f).Sound ∧ (s.modify key f).view = s.view.modify key f := by
  obtain ⟨m, hm⟩ := h
  exact ⟨⟨_, viewed.simulation.modify hm key f⟩, (viewed.modify hm.1 key f).2⟩

theorem remove : (s.remove key).1 = s.get? key ∧ (s.remove key).2.Sound ∧
    (s.remove key).2.view = (s.view.remove key).2 := by
  obtain ⟨m, hm⟩ := h
  obtain ⟨hfst, -, hview⟩ := viewed.remove hm.1 hm.2.load key
  exact ⟨hfst, ⟨_, viewed.simulation.remove hm key⟩, hview⟩

/-- A removal of a key that is there takes one entry away. -/
theorem size_remove :
    (s.remove key).2.size + (if (s.remove key).1.isSome then 1 else 0) = s.size := by
  obtain ⟨hfst, -, hview⟩ := h.remove key
  have hsize : (s.remove key).2.size = (s.view.remove key).2.size := congrArg View.size hview
  obtain ⟨m, -, hm⟩ := h
  rw [hfst, hsize]
  cases hk : s.get? key with
  | none =>
    rw [View.remove_of_none hk]
    rfl
  | some value =>
    rw [View.remove_of_some hk]
    exact Nat.sub_add_cancel (hm.size_pos hk)

theorem nodup_keys : s.keys.Nodup := by
  obtain ⟨m, hinv, -⟩ := h
  cases s with
  | chained s => exact ChainStore.WellBucketed.nodup_keys hinv
  | slotted p s => exact SlotStore.WellPlaced.nodup_keys hinv

theorem length_keys : s.keys.length = s.size := by
  obtain ⟨m, hinv, -⟩ := h
  cases s with
  | chained s =>
    exact (List.length_map _).trans (ChainStore.WellBucketed.lists hinv).size_eq.symm
  | slotted p s =>
    exact (List.length_map _).trans (SlotStore.WellPlaced.lists hinv).size_eq.symm

theorem mem_keys_iff : key ∈ s.keys ↔ (s.get? key).isSome := by
  obtain ⟨m, hinv, -⟩ := h
  cases s with
  | chained s => exact (ChainStore.WellBucketed.lists hinv).mem_keys_iff
  | slotted p s => exact (SlotStore.WellPlaced.lists hinv).mem_keys_iff

end Sound

/-! ## Agreement -/

/-- Both stores are sound and show the same view. -/
structure Agree (s t : Store K V) : Prop where
  left : s.Sound
  right : t.Sound
  view_eq : s.view = t.view

theorem agree_empty (σ τ : Strategy) : (empty σ : Store K V).Agree (empty τ) :=
  ⟨sound_empty σ, sound_empty τ, (view_empty σ).trans (view_empty τ).symm⟩

namespace Agree

variable {s t : Store K V} (h : s.Agree t)
include h

theorem get?_eq (key : K) : s.get? key = t.get? key := congrFun (congrArg View.get? h.view_eq) key

theorem size_eq : s.size = t.size := congrArg View.size h.view_eq

theorem capacity_eq : s.capacity = t.capacity := congrArg View.capacity h.view_eq

theorem insert (key : K) (value : V) : (s.insert key value).Agree (t.insert key value) := by
  obtain ⟨hs, hsv⟩ := h.left.insert key value
  obtain ⟨ht, htv⟩ := h.right.insert key value
  exact ⟨hs, ht, by rw [hsv, htv, h.view_eq]⟩

/-- Agreeing stores list the same keys, in some order. -/
theorem perm_keys : s.keys.Perm t.keys := by
  rw [List.perm_ext_iff_of_nodup h.left.nodup_keys h.right.nodup_keys]
  intro key
  rw [h.left.mem_keys_iff, h.right.mem_keys_iff, h.get?_eq]

end Agree

end Store

end TableEngine
