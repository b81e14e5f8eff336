import TableEngine.Proofs.Slots.Walk

/-!
# Where the entries of a slot array stand

`WellPlaced` is the invariant of the slot arrays : the size counts the occupied
slots, no key is held twice, and the walk for the key of an entry reaches it before
any empty slot. On such an array a look-up reads the array (`get?_eq_some_iff`).

Every operation but the rebuild writes one slot, the place of its key, and never an
empty one. So one lemma carries the invariant (`WellPlaced.set`) and one the look-ups
(`WellPlaced.get?_set`). They are used for the three writes there are : over an entry
(`overwrite`), into a vacancy (`occupy`), and of a tombstone (`bury`).
-/

set_option linter.unusedSectionVars false

namespace TableEngine

/-- The slot holds an entry. -/
def Slot.isOccupied {K V : Type} : Slot K V → Bool
  | .occupied _ => true
  | _ => false

@[simp] theorem Slot.isOccupied_occupied {K V : Type} (e : Entry K V) :
    (Slot.occupied e).isOccupied = true := rfl

@[simp] theorem Slot.isOccupied_tombstone {K V : Type} :
    (Slot.tombstone : Slot K V).isOccupied = false := rfl

namespace SlotStore

variable {p : Probe} {K V : Type} [DecidableEq K] [StoreKey K]

/-- The walk for `key` reaches slot `i` : it examines it on some attempt, and goes on
past every slot it examines before. -/
def Reaches (p : Probe) (slots : Array (Slot K V)) (key : K) (i : Nat) : Prop :=
  ∃ j < slots.size, p.slot (StoreKey.hash key) j slots.size = i ∧
    ∀ j' < j, Used slots (p.slot (StoreKey.hash key) j' slots.size)

/-- The invariant of a slot array. -/
structure WellPlaced (s : SlotStore p K V) : Prop where
  /-- The size is the number of occupied slots. -/
  size_eq : s.size = s.slots.countP Slot.isOccupied
  /-- No two slots hold equal keys. -/
  distinct : ∀ {i j : Nat} {e e' : Entry K V}, s.slots[i]? = some (.occupied e) →
    s.slots[j]? = some (.occupied e') → e.key = e'.key → i = j
  /-- The walk for the key of an entry reaches it. -/
  reaches : ∀ {i : Nat} {e : Entry K V}, s.slots[i]? = some (.occupied e) →
    Reaches p s.slots e.key i

variable {s : SlotStore p K V} {key : K} {i n : Nat} {u : Slot K V}

/-! ## Looking up -/

namespace WellPlaced

theorem find?_eq_some_iff (h : s.WellPlaced) :
    s.find? key = some i ↔ ∃ v : V, s.slots[i]? = some (.occupied ⟨key, v⟩) := by
  constructor
  · exact occupied_of_findFrom _ _
  · rintro ⟨v, hv⟩
    obtain ⟨j, hj, rfl, hused⟩ := h.reaches hv
    obtain ⟨i', hi'⟩ := Option.isSome_iff_exists.mp
      (findFrom_isSome s.slots.size 0 (Nat.zero_le j) (by omega) (fun j' _ hj' => hused j' hj') hv)
    obtain ⟨v', hv'⟩ := occupied_of_findFrom _ _ hi'
    rw [h.distinct hv hv' rfl]
    exact hi'

/-- A look-up reads the entries of the array. -/
theorem get?_eq_some_iff (h : s.WellPlaced) {v : V} :
    s.get? key = some v ↔ ∃ i : Nat, s.slots[i]? = some (.occupied ⟨key, v⟩) := by
  constructor
  · intro hg
    cases hf : s.find? key with
    | none => simp [get?, hf] at hg
    | some i =>
      obtain ⟨v', hv'⟩ := h.find?_eq_some_iff.mp hf
      obtain rfl : v' = v := by simpa [get?, hf, hv', Slot.entry?] using hg
      exact ⟨i, hv'⟩
  · rintro ⟨i, hi⟩
    simp [get?, h.find?_eq_some_iff.mpr ⟨v, hi⟩, hi, Slot.entry?]

theorem get?_eq_none_iff (h : s.WellPlaced) :
    s.get? key = none ↔ ∀ (i : Nat) (v : V), s.slots[i]? ≠ some (.occupied ⟨key, v⟩) := by
  rw [Option.eq_none_iff_forall_ne_some]
  constructor
  · exact fun hn i v hi => hn v (h.get?_eq_some_iff.mpr ⟨i, hi⟩)
  · intro hn v hv
    obtain ⟨i, hi⟩ := h.get?_eq_some_iff.mp hv
    exact hn i v hi

end WellPlaced

theorem get?_eq_none_of_find? (h : s.find? key = none) : s.get? key = none := by
  simp [get?, h]

/-! ## Writing one slot -/

theorem used_set {slots : Array (Slot K V)} {j : Nat} (hu : u ≠ .empty) (h : Used slots j) :
    Used (slots.setIfInBounds i u) j := by
  obtain ⟨w, hw, hne⟩ := h
  by_cases hij : i = j
  · subst hij
    exact ⟨u, Array.getElem?_setIfInBounds_self_of_lt (Array.getElem?_eq_some_iff.mp hw).1, hu⟩
  · exact ⟨w, by rwa [Array.getElem?_setIfInBounds_ne hij], hne⟩

theorem reaches_set {slots : Array (Slot K V)} {j : Nat} (hu : u ≠ .empty)
    (h : Reaches p slots key j) : Reaches p (slots.setIfInBounds i u) key j := by
  obtain ⟨a, ha, hslot, hused⟩ := h
  unfold Reaches
  rw [Array.size_setIfInBounds]
  exact ⟨a, ha, hslot, fun a' ha' => used_set hu (hused a' ha')⟩

theorem countP_set (q : Slot K V → Bool) {slots : Array (Slot K V)} {w : Slot K V}
    (hw : slots[i]? = some w) : (slots.setIfInBounds i u).countP q + (if q w then 1 else 0) =
      slots.countP q + (if q u then 1 else 0) := by
  obtain ⟨hi, rfl⟩ := Array.getElem?_eq_some_iff.mp hw
  have := Array.boole_getElem_le_countP (p := q) hi
  rw [Array.setIfInBounds_def, dif_pos hi, Array.countP_set hi]
  omega

/-- Slot `i` is the one place for `key` : it holds no other key, no other slot holds the
key, and the walk for the key reaches it. -/
structure PlaceOf (s : SlotStore p K V) (key : K) (i : Nat) : Prop where
  holds : ∀ {e : Entry K V}, s.slots[i]? = some (.occupied e) → e.key = key
  alone : ∀ {j : Nat} {e : Entry K V}, s.slots[j]? = some (.occupied e) → e.key = key → j = i
  reaches : Reaches p s.slots key i

namespace WellPlaced

theorem placeOf_of_occupied (h : s.WellPlaced) {v : V}
    (hi : s.slots[i]? = some (.occupied ⟨key, v⟩)) : s.PlaceOf key i where
  holds he := by
    rw [hi] at he
    cases he
    rfl
  alone hj hk := h.distinct hj hi hk
  reaches := h.reaches hi

theorem placeOf_of_vacancy (h : s.WellPlaced) (hk : s.get? key = none)
    (hi : Vacancy p s.slots (StoreKey.hash key) i) : s.PlaceOf key i where
  holds he := absurd ⟨_, he⟩ hi.2.1
  alone hj he := by
    subst he
    exact absurd hj (h.get?_eq_none_iff.mp hk _ _)
  reaches := by
    obtain ⟨-, -, j, hj, hslot, hfull⟩ := hi
    exact ⟨j, hj, hslot, fun j' hj' => (hfull j' hj').used⟩

/-- A write to the place of a key keeps the invariant if it puts no other key there and
the size follows the occupied slots. -/
theorem set (h : s.WellPlaced) (hp : s.PlaceOf key i) {w : Slot K V}
    (hw : s.slots[i]? = some w) (hu : u ≠ .empty) (hkey : ∀ e, u = .occupied e → e.key = key)
    (hn : n + (if w.isOccupied then 1 else 0) = s.size + (if u.isOccupied then 1 else 0)) :
    (⟨s.slots.setIfInBounds i u, n⟩ : SlotStore p K V).WellPlaced where
  size_eq := by
    have := countP_set Slot.isOccupied (u := u) hw
    have := h.size_eq
    show n = (s.slots.setIfInBounds i u).countP Slot.isOccupied
    omega
  distinct := by
    intro j j' e e' hj hj' hk
    have hi := (Array.getElem?_eq_some_iff.mp hw).1
    simp only [Array.getElem?_setIfInBounds, if_pos hi] at hj hj'
    split at hj <;> split at hj'
    · omega
    · next hij' => exact absurd (hp.alone hj' (hk ▸ hkey e (Option.some.inj hj))).symm hij'
    · next hij _ => exact absurd (hp.alone hj (hk.trans (hkey e' (Option.some.inj hj')))).symm hij
    · exact h.distinct hj hj' hk
  reaches := by
    intro j e hj
    have hi := (Array.getElem?_eq_some_iff.mp hw).1
    simp only [Array.getElem?_setIfInBounds, if_pos hi] at hj
    split at hj
    · next hij => exact hij ▸ reaches_set hu (hkey e (Option.some.inj hj) ▸ hp.reaches)
    · exact reaches_set hu (h.reaches hj)

/-- After a write to the place of a key, a look-up of the key finds what was written, and
every other look-up what it found before. -/
theorem get?_set (h : s.WellPlaced) (hp : s.PlaceOf key i)
    (h' : (⟨s.slots.setIfInBounds i u, n⟩ : SlotStore p K V).WellPlaced)
    (hi : i < s.slots.size) (hkey : ∀ e, u = .occupied e → e.key = key) (k : K) :
    (⟨s.slots.setIfInBounds i u, n⟩ : SlotStore p K V).get? k =
      if k = key then u.entry?.map Entry.value else s.get? k := by
  ext v
  rw [h'.get?_eq_some_iff]
  simp only [Array.getElem?_setIfInBounds, if_pos hi]
  constructor
  · rintro ⟨j, hj⟩
    split at hj
    · obtain rfl := Option.some.inj hj
      rw [if_pos (hkey _ rfl)]
      rfl
    · next hij =>
      rw [if_neg fun hk => hij (hp.alone hj hk).symm]
      exact h.get?_eq_some_iff.mpr ⟨j, hj⟩
  · split
    · next hk =>
      intro hv
      cases u with
      | occupied e =>
        refine ⟨i, ?_⟩
        have hv : e.value = v := by simpa [Slot.entry?] using hv
        rw [if_pos rfl, ← hv, hk, ← hkey e rfl]
      | empty => simp [Slot.entry?] at hv
      | tombstone => simp [Slot.entry?] at hv
    · next hk =>
      intro hv
      obtain ⟨j, hj⟩ := h.get?_eq_some_iff.mp hv
      refine ⟨j, ?_⟩
      rwa [if_neg]
      rintro rfl
      exact hk (hp.holds hj)

/-! ### The three writes -/

variable {v value : V}

theorem overwrite (h : s.WellPlaced) (hv : s.slots[i]? = some (.occupied ⟨key, v⟩)) :
    (⟨s.slots.setIfInBounds i (.occupied ⟨key, value⟩), s.size⟩ : SlotStore p K V).WellPlaced := by
  refine h.set (h.placeOf_of_occupied hv) hv (by simp) (fun e he => ?_) (by simp)
  cases he
  rfl

theorem get?_overwrite (h : s.WellPlaced) (hv : s.slots[i]? = some (.occupied ⟨key, v⟩)) (k : K) :
    (⟨s.slots.setIfInBounds i (.occupied ⟨key, value⟩), s.size⟩ : SlotStore p K V).get? k =
      if k = key then some value else s.get? k := by
  refine h.get?_set (h.placeOf_of_occupied hv) (h.overwrite hv)
    (Array.getElem?_eq_some_iff.mp hv).1 (fun e he => ?_) k
  cases he
  rfl

theorem occupy (h : s.WellPlaced) (hk : s.get? key = none)
    (hi : Vacancy p s.slots (StoreKey.hash key) i) :
    (⟨s.slots.setIfInBounds i (.occupied ⟨key, value⟩), s.size + 1⟩ :
      SlotStore p K V).WellPlaced := by
  obtain ⟨w, hw⟩ : ∃ w, s.slots[i]? = some w := ⟨_, Array.getElem?_eq_getElem hi.1⟩
  have hfree : w.isOccupied = false := by
    cases w with
    | occupied e => exact absurd ⟨e, hw⟩ hi.2.1
    | empty => rfl
    | tombstone => rfl
  refine h.set (h.placeOf_of_vacancy hk hi) hw (by simp) (fun e he => ?_) (by simp [hfree])
  cases he
  rfl

theorem get?_occupy (h : s.WellPlaced) (hk : s.get? key = none)
    (hi : Vacancy p s.slots (StoreKey.hash key) i) (k : K) :
    (⟨s.slots.setIfInBounds i (.occupied ⟨key, value⟩), s.size + 1⟩ : SlotStore p K V).get? k =
      if k = key then some value else s.get? k := by
  refine h.get?_set (h.placeOf_of_vacancy hk hi) (h.occupy hk hi) hi.1 (fun e he => ?_) k
  cases he
  rfl

/-- An array that holds an entry is not of size zero. -/
theorem size_pos (h : s.WellPlaced) (hv : s.slots[i]? = some (.occupied ⟨key, v⟩)) :
    0 < s.size := by
  rw [h.size_eq, Array.countP_pos_iff]
  exact ⟨_, Array.mem_of_getElem? hv, rfl⟩

theorem bury (h : s.WellPlaced) (hv : s.slots[i]? = some (.occupied ⟨key, v⟩)) :
    (⟨s.slots.setIfInBounds i .tombstone, s.size - 1⟩ : SlotStore p K V).WellPlaced := by
  have := h.size_pos hv
  exact h.set (h.placeOf_of_occupied hv) hv (by simp) (by simp) (by simp; omega)

theorem get?_bury (h : s.WellPlaced) (hv : s.slots[i]? = some (.occupied ⟨key, v⟩)) (k : K) :
    (⟨s.slots.setIfInBounds i .tombstone, s.size - 1⟩ : SlotStore p K V).get? k =
      if k = key then none else s.get? k :=
  h.get?_set (h.placeOf_of_occupied hv) (h.bury hv) (Array.getElem?_eq_some_iff.mp hv).1
    (by simp) k

end WellPlaced

end SlotStore

end TableEngine
