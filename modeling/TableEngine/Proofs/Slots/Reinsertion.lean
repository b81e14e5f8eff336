import TableEngine.Proofs.Slots.FiniteMap

/-!
# A rebuild is a reinsertion

A rebuild never looks at keys. It plans the slots of the new array from the hashes and from which
slots are taken, and fills them in. An insertion walks past the entries of other keys, and past
tombstones. `SlotStore.Moved` says that nevertheless both lead to the same array, slot for slot :
the entries, taken in slot order, stand where the walks for their keys put them one by one into
an array of empty slots (`SlotStore.seat`). So the order in which the rows of a table are listed
after a rebuild is that of a new table with the same rows inserted in the old order.

The two agree since the new array has no tombstones and none of the keys is in it yet
(`SlotStore.placeFrom_eq_firstFree`). `moved_run` finds every rebuild of a run to be of this kind.
-/

set_option linter.unusedSectionVars false

namespace TableEngine

variable {p : Probe} {K V : Type} [DecidableEq K] [StoreKey K]

namespace SlotStore

variable {s t : SlotStore p K V} {capacity : Nat}

/-- Put an entry into the slot that the walk for its key chooses. No answer if the walk finds the
key, or no slot. -/
def seat (t : SlotStore p K V) (e : Entry K V) : Option (SlotStore p K V) :=
  match t.place e.key with
  | some (.vacant i) => some ⟨t.slots.setIfInBounds i (.occupied e), t.size + 1⟩
  | _ => none

/-- Entries of new keys all find a slot, and stand there as if they had been written. -/
theorem Accepts.foldlM_seat : ∀ {es : List (Entry K V)} {t : SlotStore p K V}, Accepts t es →
    es.foldlM seat t = some (t.writeAll es)
  | [], _, _ => rfl
  | e :: es, t, h => by
    obtain ⟨i, hpl, -, hw⟩ := h.exists_vacancy
    have hseat : seat t e = some (t.write e.key e.value) := by rw [seat, hpl, hw]
    rw [List.foldlM_cons, hseat]
    exact foldlM_seat h.tail

theorem tombstones_eq_zero (h : t.Clean) : t.tombstones = 0 := by
  rw [tombstones, Array.countP_eq_zero]
  intro u hu hmark
  obtain ⟨i, hi⟩ := Array.mem_iff_getElem?.mp hu
  cases u with
  | tombstone => exact h i hi
  | empty => cases hmark
  | occupied e => cases hmark

/-- The array `t` has the given capacity and holds what `s` holds. -/
structure Moved (s : SlotStore p K V) (capacity : Nat) (t : SlotStore p K V) : Prop where
  /-- The entries stand in the slots that are planned from the hashes alone. -/
  planned : ∃ places, plan p (s.entries.map fun e => StoreKey.hash e.key) capacity = some places ∧
    t.slots = fill (Array.replicate capacity .empty) s.entries places
  /-- They stand where they are put one by one, in slot order, into an array of empty slots. -/
  seated : s.entries.foldlM seat (blank p K V capacity) = some t
  capacity_eq : t.capacity = capacity
  tombstones_eq : t.tombstones = 0
  size_eq : t.size = s.size
  get?_eq : ∀ key, t.get? key = s.get? key

namespace WellPlaced

variable (h : s.WellPlaced)
include h

theorem moved_rebuild (hd : ∃ k, capacity = initialCapacity * 2 ^ k) (hroom : s.size ≤ capacity) :
    Moved s capacity (s.rebuild capacity) := by
  have hcap := two_pow_of_doubled hd
  have hle := initial_le_of_doubled hd
  have hacc := h.accepts_blank hcap hroom
  have hrebuild := h.rebuild_eq hcap hle hroom
  have hview := (h.view_rebuild hcap hle hroom).2
  obtain ⟨places, hplan, hfill⟩ := h.exists_plan hcap hroom
  exact {
    planned := ⟨places, hplan, by rw [hfill, hrebuild]⟩
    seated := by rw [hacc.foldlM_seat, hrebuild]
    capacity_eq := congrArg View.capacity hview
    tombstones_eq := by
      rw [hrebuild]
      exact tombstones_eq_zero hacc.accepts_writeAll.clean
    size_eq := congrArg View.size hview
    get?_eq := congrFun (congrArg View.get? hview) }

theorem moved_grown (hload : WithinLoad s.size s.capacity) (hg : needsGrow s.size s.capacity) :
    Moved s (s.capacity * 2) s.grown := by
  obtain ⟨hd, hroom⟩ := hload.doubled_of_needsGrow hg
  rw [show s.grown = s.rebuild (s.capacity * 2) from if_pos hg]
  exact h.moved_rebuild hd hroom.le

theorem moved_shrunk (hd : ∃ k, s.capacity = initialCapacity * 2 ^ k)
    (hs : needsShrink s.size s.capacity) : Moved s (s.capacity / 2) s.shrunk := by
  obtain ⟨hds, hroom⟩ := doubled_of_needsShrink hd hs
  rw [show s.shrunk = s.rebuild (s.capacity / 2) from if_pos hs]
  exact h.moved_rebuild hds hroom

end WellPlaced

end SlotStore

open SlotStore

/-- In every run of a slot array, an insertion that finds the array three quarters full moves it
to twice the capacity before it writes, and a removal that leaves it a quarter full moves what it
leaves to half the capacity. No other insertion or removal moves an entry. -/
theorem moved_run (p : Probe) (calls : List (Call K V)) :
    let s := (Keyed.run (SlotStore.empty : SlotStore p K V) calls).2
    (∀ key value,
      if needsGrow s.size s.capacity then
        ∃ t, Moved s (s.capacity * 2) t ∧ s.insert key value = t.write key value
      else s.insert key value = s.write key value) ∧
    ∀ key,
      let t := (s.vacate key).2
      if needsShrink t.size t.capacity then Moved t (t.capacity / 2) (s.remove key).2
      else (s.remove key).2 = t := by
  intro s
  obtain ⟨-, hplaced, hshows⟩ := viewed.simulation.run calls (shows_empty (p := p))
  have hload : WithinLoad s.size s.capacity := hshows.load
  refine ⟨fun key value => ?_, fun key => ?_⟩
  · split
    · next hg => exact ⟨s.grown, hplaced.moved_grown hload hg, rfl⟩
    · next hg => rw [SlotStore.insert, show s.grown = s from if_neg hg]
  · intro t
    have ht : t.WellPlaced := hplaced.vacate key
    have hcapacity : t.capacity = s.capacity := hplaced.capacity_vacate key
    cases hk : s.get? key with
    | none =>
      -- an array that is left alone was not up to being halved before
      have hsame : s.vacate key = (none, s) := hplaced.vacate_of_none key hk
      have hts : t = s := congrArg Prod.snd hsame
      have hremove : (s.remove key).2 = s := by rw [SlotStore.remove, hsame]
      rw [hremove, hts, if_neg hload.not_needsShrink]
    | some value =>
      have hremove : (s.remove key).2 = t.shrunk := by
        have hpair : s.vacate key = (some value, t) :=
          Prod.ext ((hplaced.vacate_fst key).trans hk) rfl
        rw [SlotStore.remove, hpair]
      rw [hremove]
      split
      · next hs => exact ht.moved_shrunk (hcapacity ▸ hload.doubled) hs
      · next hs => exact if_neg hs

end TableEngine
