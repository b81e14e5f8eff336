import TableEngine.Proofs.Slots.Operations
import TableEngine.Proofs.Store.Load

/-!
# A rebuild writes the entries into an empty array

`SlotStore.rebuild` plans the slots of the new array from the hashes alone and fills
them afterwards. `WellPlaced.rebuild_eq` : the result is what writing the entries one
by one, in slot order, into an empty array of the new capacity leaves (`writeAll`).
The plan cannot fail, as the array has room and every sequence covers it.

So a rebuild keeps the invariant and all of the view but the capacity because writes
do (`WellPlaced.view_rebuild`).
-/

set_option linter.unusedSectionVars false

namespace TableEngine.SlotStore

variable {p : Probe} {K V : Type} [DecidableEq K] [StoreKey K] {s t : SlotStore p K V}

/-! ## The entries in slot order -/

theorem mem_entries {e : Entry K V} :
    e ∈ s.entries ↔ ∃ i : Nat, s.slots[i]? = some (.occupied e) := by
  have hentry : ∀ u : Slot K V, u.entry? = some e ↔ u = .occupied e := by
    rintro (_ | _ | _) <;> simp [Slot.entry?]
  simp only [entries, List.mem_filterMap, hentry, exists_eq_right, Array.mem_toList_iff,
    Array.mem_iff_getElem?]

theorem length_entries : s.entries.length = s.slots.countP Slot.isOccupied := by
  have hentry : (fun u : Slot K V => u.entry?.isSome) = Slot.isOccupied := by
    funext u
    cases u <;> rfl
  rw [entries, List.length_filterMap_eq_countP, hentry, Array.countP_toList]

namespace WellPlaced

theorem nodup_keys (h : s.WellPlaced) : s.keys.Nodup := by
  have hentry : ∀ {u : Slot K V} {e : Entry K V}, u.entry? = some e → u = .occupied e := by
    rintro (_ | _ | _) e he <;> simp_all [Slot.entry?]
  rw [keys, entries, List.Nodup, List.pairwise_map, List.pairwise_filterMap,
    List.pairwise_iff_getElem]
  intro i j hi hj hij e he e' he' hk
  have hi' := hentry he
  have hj' := hentry he'
  rw [Array.getElem_toList] at hi' hj'
  have := h.distinct (Array.getElem?_eq_some_iff.mpr ⟨by simpa using hi, hi'⟩)
    (Array.getElem?_eq_some_iff.mpr ⟨by simpa using hj, hj'⟩) hk
  omega

theorem mem_entries_iff (h : s.WellPlaced) {k : K} {v : V} :
    ⟨k, v⟩ ∈ s.entries ↔ s.get? k = some v := by
  rw [mem_entries, h.get?_eq_some_iff]

/-- The list of all entries names each of them once. -/
theorem lists (h : s.WellPlaced) : s.view.Lists s.entries where
  nodup := h.nodup_keys
  mem_iff := h.mem_entries_iff
  size_eq := h.size_eq.trans length_entries.symm

end WellPlaced

/-! ## Writing entries one by one -/

/-- Write the entries one after another. -/
def writeAll (t : SlotStore p K V) (es : List (Entry K V)) : SlotStore p K V :=
  es.foldl (fun t e => t.write e.key e.value) t

/-- An array of empty slots. -/
def blank (p : Probe) (K V : Type) (capacity : Nat) : SlotStore p K V :=
  ⟨Array.replicate capacity .empty, 0⟩

/-- No slot of the array is a tombstone. -/
def Clean (t : SlotStore p K V) : Prop :=
  ∀ i : Nat, t.slots[i]? ≠ some .tombstone

/-- The array has room for new entries of distinct keys. -/
structure Accepts (t : SlotStore p K V) (es : List (Entry K V)) : Prop where
  placed : t.WellPlaced
  clean : t.Clean
  two_pow : ∃ k, t.capacity = 2 ^ k
  room : t.size + es.length ≤ t.capacity
  fresh : t.view.Fresh es

theorem wellPlaced_blank (capacity : Nat) : (blank p K V capacity).WellPlaced := by
  have hempty : ∀ {i : Nat} {e : Entry K V},
      (blank p K V capacity).slots[i]? ≠ some (.occupied e) := by
    intro i e
    rw [blank, Array.getElem?_replicate]
    split <;> simp
  constructor
  · simp [blank, Array.countP_replicate, Slot.isOccupied]
  · exact fun hi => absurd hi hempty
  · exact fun hi => absurd hi hempty

theorem clean_blank (capacity : Nat) : (blank p K V capacity).Clean := by
  intro i
  rw [blank, Array.getElem?_replicate]
  split <;> simp

theorem get?_blank (capacity : Nat) (k : K) : (blank p K V capacity).get? k = none := by
  rw [(wellPlaced_blank capacity).get?_eq_none_iff]
  intro i v
  rw [blank, Array.getElem?_replicate]
  split <;> simp

theorem view_blank (capacity : Nat) : (blank p K V capacity).view = .blank capacity :=
  View.ext (funext fun k => get?_blank capacity k) rfl Array.size_replicate

namespace Accepts

variable {e : Entry K V} {es : List (Entry K V)}

theorem lt_capacity (h : Accepts t (e :: es)) : t.size < t.capacity := by
  have := h.room
  simp only [List.length_cons] at this
  omega

/-- The vacancy that the first entry goes to. -/
theorem exists_vacancy (h : Accepts t (e :: es)) :
    ∃ i, t.place e.key = some (.vacant i) ∧ Vacancy p t.slots (StoreKey.hash e.key) i ∧
      t.write e.key e.value = ⟨t.slots.setIfInBounds i (.occupied e), t.size + 1⟩ := by
  have hk : t.get? e.key = none := h.fresh.head
  rcases h.placed.exists_placement h.two_pow h.lt_capacity e.key with
    ⟨i, v, -, hv⟩ | ⟨i, hpl, -, hi⟩
  · exact absurd hv (h.placed.get?_eq_none_iff.mp hk i v)
  · exact ⟨i, hpl, hi, by simp [write, hpl]⟩

theorem view_write (h : Accepts t (e :: es)) :
    (t.write e.key e.value).view = t.view.write e.key e.value :=
  h.placed.view_write e.key h.two_pow h.lt_capacity e.value

theorem size_write (h : Accepts t (e :: es)) : (t.write e.key e.value).size = t.size + 1 :=
  (congrArg View.size h.view_write).trans h.fresh.size_write

theorem tail (h : Accepts t (e :: es)) : Accepts (t.write e.key e.value) es where
  placed := h.placed.write e.key h.two_pow h.lt_capacity e.value
  clean := by
    obtain ⟨i, -, hi, hw⟩ := h.exists_vacancy
    intro j
    simp only [hw, Array.getElem?_setIfInBounds, if_pos hi.1]
    split
    · simp
    · exact h.clean j
  two_pow := by
    rw [h.placed.capacity_write e.key h.two_pow h.lt_capacity]
    exact h.two_pow
  room := by
    have := h.room
    rw [h.placed.capacity_write e.key h.two_pow h.lt_capacity, h.size_write]
    simp only [List.length_cons] at this
    omega
  fresh := by
    rw [h.view_write]
    exact h.fresh.tail

/-- Once the entries are written the array accepts no more of them, but is as it should be. -/
theorem accepts_writeAll : ∀ {es : List (Entry K V)} {t : SlotStore p K V}, Accepts t es →
    Accepts (t.writeAll es) []
  | [], _, h => h
  | e :: es, t, h => by
    rw [writeAll, List.foldl_cons, ← writeAll]
    exact accepts_writeAll h.tail

theorem view_writeAll : ∀ {es : List (Entry K V)} {t : SlotStore p K V}, Accepts t es →
    (t.writeAll es).view = t.view.refill es
  | [], _, _ => rfl
  | e :: es, t, h => by
    rw [writeAll, List.foldl_cons, ← writeAll, view_writeAll h.tail,
      h.view_write, View.refill_cons]

end Accepts

/-! ## The plan -/

/-- On an array without tombstones the walk for an absent key ends at the first slot that
is not taken. -/
theorem placeFrom_eq_firstFree {key : K} (hash : UInt64) (hclean : t.Clean)
    (habs : ∀ (i : Nat) (v : V), t.slots[i]? ≠ some (.occupied ⟨key, v⟩))
    (hpos : 0 < t.slots.size) :
    ∀ left a : Nat, placeFrom p t.slots key hash a none left =
      (firstFree p (t.slots.map Slot.isOccupied) hash a left).map .vacant
  | 0, _ => rfl
  | left + 1, a => by
    have ih := placeFrom_eq_firstFree hash hclean habs hpos left (a + 1)
    have hlt := p.slot_lt hash a hpos
    obtain ⟨u, hu⟩ : ∃ u, t.slots[p.slot hash a t.slots.size]? = some u :=
      ⟨_, Array.getElem?_eq_getElem hlt⟩
    cases u with
    | empty => simp [placeFrom, firstFree, hu, Array.getD_eq_getD_getElem?, Slot.isOccupied]
    | tombstone => exact absurd hu (hclean _)
    | occupied e =>
      have hne : e.key ≠ key := by
        rintro rfl
        exact habs _ e.value hu
      simpa [placeFrom, firstFree, hu, hne, Array.getD_eq_getD_getElem?] using ih

/-- The plan for new entries, once filled in, is what writing them one by one leaves. -/
theorem Accepts.exists_plan : ∀ {es : List (Entry K V)} {t : SlotStore p K V}, Accepts t es →
    ∃ places, planFrom p (t.slots.map Slot.isOccupied) (es.map fun e => StoreKey.hash e.key) =
      some places ∧ fill t.slots es places = (t.writeAll es).slots
  | [], _, _ => ⟨[], rfl, rfl⟩
  | e :: es, t, h => by
    obtain ⟨i, hpl, hi, hw⟩ := h.exists_vacancy
    have hfree : firstFree p (t.slots.map Slot.isOccupied) (StoreKey.hash e.key) 0
        (t.slots.map Slot.isOccupied).size = some i := by
      have habs := h.placed.get?_eq_none_iff.mp h.fresh.head
      have := placeFrom_eq_firstFree (StoreKey.hash e.key) h.clean habs
        (by have := hi.1; omega) t.slots.size 0
      rw [place, this, Option.map_eq_some_iff] at hpl
      obtain ⟨j, hj, hji⟩ := hpl
      cases hji
      rwa [Array.size_map]
    obtain ⟨places, hplan, hfill⟩ := Accepts.exists_plan h.tail
    refine ⟨i :: places, ?_, ?_⟩
    -- the plan marks the slot as taken, which it is once the entry is written
    · rw [hw, Array.map_setIfInBounds] at hplan
      rw [List.map_cons, planFrom, hfree]
      simp only
      rw [show true = (Slot.occupied e).isOccupied from rfl, hplan]
      rfl
    · rw [hw] at hfill
      rw [writeAll, List.foldl_cons, ← writeAll, hw, ← hfill]
      rfl

/-! ## The rebuild -/

namespace WellPlaced

/-- A new array with room accepts the entries of the old one. -/
theorem accepts_blank (h : s.WellPlaced) {capacity : Nat} (hcap : ∃ k, capacity = 2 ^ k)
    (hroom : s.size ≤ capacity) : Accepts (blank p K V capacity) s.entries where
  placed := wellPlaced_blank capacity
  clean := clean_blank capacity
  two_pow := by simpa [blank, SlotStore.capacity] using hcap
  room := by
    rw [show s.size = s.entries.length from h.lists.size_eq] at hroom
    simpa [blank, SlotStore.capacity] using hroom
  fresh := by
    rw [view_blank]
    exact h.lists.fresh_blank capacity

/-- The plan of a rebuild, once filled in, is what writing the entries one by one leaves. -/
theorem exists_plan (h : s.WellPlaced) {capacity : Nat} (hcap : ∃ k, capacity = 2 ^ k)
    (hroom : s.size ≤ capacity) :
    ∃ places, plan p (s.entries.map fun e => StoreKey.hash e.key) capacity = some places ∧
      fill (Array.replicate capacity .empty) s.entries places =
        ((blank p K V capacity).writeAll s.entries).slots := by
  obtain ⟨places, hplan, hfill⟩ := (h.accepts_blank hcap hroom).exists_plan
  have hfalse : (blank p K V capacity).slots.map Slot.isOccupied =
      Array.replicate capacity false := by simp [blank, Slot.isOccupied]
  rw [hfalse] at hplan
  exact ⟨places, hplan, hfill⟩

/-- A rebuild leaves what writing the entries, in slot order, into an empty array of the
new capacity leaves. -/
theorem rebuild_eq (h : s.WellPlaced) {capacity : Nat} (hcap : ∃ k, capacity = 2 ^ k)
    (hle : initialCapacity ≤ capacity) (hroom : s.size ≤ capacity) :
    s.rebuild capacity = (blank p K V capacity).writeAll s.entries := by
  obtain ⟨places, hplan, hfill⟩ := h.exists_plan hcap hroom
  have hview : ((blank p K V capacity).writeAll s.entries).view =
      { s.view with capacity := capacity } := by
    rw [(h.accepts_blank hcap hroom).view_writeAll, view_blank, h.lists.refill_blank]
  have hsize : ((blank p K V capacity).writeAll s.entries).size = s.size :=
    congrArg View.size hview
  rw [rebuild, Nat.max_eq_left hle]
  simp only [hplan]
  rw [hfill, ← hsize]

/-- A rebuild keeps the invariant and changes the capacity alone. -/
theorem view_rebuild (h : s.WellPlaced) {capacity : Nat} (hcap : ∃ k, capacity = 2 ^ k)
    (hle : initialCapacity ≤ capacity) (hroom : s.size ≤ capacity) :
    (s.rebuild capacity).WellPlaced ∧
      (s.rebuild capacity).view = { s.view with capacity := capacity } := by
  have hacc := h.accepts_blank hcap hroom
  rw [h.rebuild_eq hcap hle hroom, hacc.view_writeAll, view_blank]
  exact ⟨hacc.accepts_writeAll.placed, h.lists.refill_blank capacity⟩

end WellPlaced

end TableEngine.SlotStore
