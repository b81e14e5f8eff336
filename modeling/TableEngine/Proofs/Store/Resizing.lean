import TableEngine.Proofs.Store.Capacity

/-!
# Resizes are far apart

A store doubles its array when exactly three quarters of it are in use, and halves it when
exactly one quarter is (`WithinLoad.eq_of_grown`, `WithinLoad.eq_of_shrunk`). Right after a
resize the entries fill between three eighths and one half of the array
(`Store.Sound.size_of_resize`), and every call adds or takes at most one
(`Store.size_run`). So the next resize has to wait until at least one eighth as many calls as
there are places have changed the size (`Store.capacity_le_sizeChanges`), whichever way both
go, and calls around a threshold do not move the entries again and again
(`Store.resizes_apart`).
-/

namespace TableEngine

/-! ## The load at a resize -/

namespace WithinLoad

variable {size capacity : Nat}

/-- An array grows with three quarters of it in use, three eighths of the new one. -/
theorem eq_of_grown (h : WithinLoad size capacity) (hne : grownCapacity size capacity ≠ capacity) :
    grownCapacity size capacity = capacity * 2 ∧ size * 8 = grownCapacity size capacity * 3 := by
  have hle := h.atMost
  unfold grownCapacity at hne ⊢
  split
  · next hg =>
    rw [needsGrow_iff] at hg
    exact ⟨rfl, by omega⟩
  · next hg => exact absurd (if_neg hg) hne

/-- An array shrinks with one quarter of it in use, one half of the new one. -/
theorem eq_of_shrunk (h : WithinLoad (size + 1) capacity)
    (hne : shrunkCapacity size capacity ≠ capacity) :
    shrunkCapacity size capacity * 2 = capacity ∧ size * 2 = shrunkCapacity size capacity := by
  have h4 := four_dvd_of_doubled h.doubled
  have hmore := h.moreThan
  unfold shrunkCapacity at hne ⊢
  split
  · next hs =>
    rw [needsShrink_iff] at hs
    omega
  · next hs => exact absurd (if_neg hs) hne

end WithinLoad

namespace Keyed

variable {S K V : Type} [Keyed S K V]

theorem run_append : ∀ (s : S) (calls calls' : List (Call K V)),
    (run s (calls ++ calls')).2 = (run (run s calls).2 calls').2
  | _, [], _ => rfl
  | s, c :: calls, calls' => run_append (apply s c).2 calls calls'

end Keyed

namespace Store

variable {K V : Type} [DecidableEq K] [StoreKey K]

/-- The number of the calls that change the size. -/
def sizeChanges (s : Store K V) : List (Call K V) → Nat
  | [] => 0
  | c :: calls =>
    (if (Keyed.apply s c).2.size = s.size then 0 else 1) + sizeChanges (Keyed.apply s c).2 calls

theorem sizeChanges_append : ∀ (s : Store K V) (calls calls' : List (Call K V)),
    s.sizeChanges (calls ++ calls') =
      s.sizeChanges calls + (Keyed.run s calls).2.sizeChanges calls'
  | _, [], _ => (Nat.zero_add _).symm
  | s, c :: calls, calls' => by
    rw [List.cons_append, sizeChanges, sizeChanges, sizeChanges_append, Nat.add_assoc]
    rfl

/-! ## One call -/

namespace Sound

variable {s : Store K V} (h : s.Sound)
include h

/-- A call leaves the size and the capacity alone, or is an insertion, with room made for one
more entry, or takes an entry away. -/
theorem load_apply (c : Call K V) :
    let t := (Keyed.apply s c).2
    (t.size = s.size ∧ t.capacity = s.capacity) ∨
    (∃ key value, c = .insert key value ∧ (t.size = s.size ∨ t.size = s.size + 1) ∧
      t.capacity = grownCapacity s.size s.capacity) ∨
    ∃ key, c = .remove key ∧ t.size + 1 = s.size ∧
      t.capacity = shrunkCapacity t.size s.capacity := by
  cases c with
  | insert key value =>
    have hsize : (s.insert key value).size = (s.view.grown.write key value).size :=
      congrArg View.size (h.insert key value).2
    refine Or.inr (Or.inl ⟨key, value, rfl, ?_, h.capacity_insert key value⟩)
    show (s.insert key value).size = s.size ∨ (s.insert key value).size = s.size + 1
    rw [hsize]
    exact ite_eq_or_eq _ _ _
  | get key => exact Or.inl ⟨rfl, rfl⟩
  | modify key f =>
    have hview := (h.modify key f).2
    exact Or.inl ⟨congrArg View.size hview, congrArg View.capacity hview⟩
  | contains key => exact Or.inl ⟨rfl, rfl⟩
  | remove key =>
    show ((s.remove key).2.size = s.size ∧ (s.remove key).2.capacity = s.capacity) ∨ _
    by_cases hk : key ∈ s.keys
    · have hsome : (s.remove key).1.isSome := by
        rw [(h.remove key).1]
        exact (h.mem_keys_iff key).mp hk
      have hsize := h.size_remove key
      rw [if_pos hsome] at hsize
      have hcapacity := h.capacity_remove key hk
      rw [← hsize, Nat.add_sub_cancel] at hcapacity
      exact Or.inr (Or.inr ⟨key, rfl, hsize, hcapacity⟩)
    · rw [h.remove_of_absent key hk]
      exact Or.inl ⟨rfl, rfl⟩

/-- Only an insertion and a removal resize, each in its own direction and at one size. -/
theorem load_of_resize {c : Call K V} (hne : (Keyed.apply s c).2.capacity ≠ s.capacity) :
    let t := (Keyed.apply s c).2
    (∃ key value, c = .insert key value ∧ t.capacity = s.capacity * 2 ∧
      s.size * 8 = t.capacity * 3 ∧ (t.size = s.size ∨ t.size = s.size + 1)) ∨
    ∃ key, c = .remove key ∧ t.capacity * 2 = s.capacity ∧ t.size * 2 = t.capacity := by
  intro t
  rcases h.load_apply c with ⟨-, hsame⟩ | ⟨key, value, hc, hsize, hcapacity⟩ |
    ⟨key, hc, hsize, hcapacity⟩
  · exact absurd hsame hne
  · rw [hcapacity] at hne
    obtain ⟨hdouble, huse⟩ := h.load.eq_of_grown hne
    rw [← hcapacity] at hdouble huse
    exact Or.inl ⟨key, value, hc, hdouble, huse, hsize⟩
  · rw [hcapacity] at hne
    obtain ⟨hhalf, huse⟩ := (hsize ▸ h.load).eq_of_shrunk hne
    rw [← hcapacity] at hhalf huse
    exact Or.inr ⟨key, hc, hhalf, huse⟩

/-- A resize leaves the array three eighths to one half full. -/
theorem size_of_resize {c : Call K V} (hne : (Keyed.apply s c).2.capacity ≠ s.capacity) :
    let t := (Keyed.apply s c).2
    t.capacity * 3 ≤ t.size * 8 ∧ t.size * 2 ≤ t.capacity := by
  have hcap := (sound_apply h c).load.initial_le
  simp only [initialCapacity] at hcap
  rcases h.load_of_resize hne with ⟨_, _, -, -, huse, hsize⟩ | ⟨_, -, -, huse⟩
  · omega
  · omega

end Sound

/-! ## Runs -/

/-- The size changes by one entry at a time. -/
theorem size_run : ∀ {s : Store K V} (calls : List (Call K V)), s.Sound →
    (Keyed.run s calls).2.size ≤ s.size + s.sizeChanges calls ∧
      s.size ≤ (Keyed.run s calls).2.size + s.sizeChanges calls
  | _, [], _ => ⟨Nat.le_refl _, Nat.le_refl _⟩
  | s, c :: calls, h => by
    obtain ⟨hle, hge⟩ := size_run calls (sound_apply h c)
    have hrun : (Keyed.run s (c :: calls)).2 = (Keyed.run (Keyed.apply s c).2 calls).2 := rfl
    rw [hrun, sizeChanges]
    split
    · next hsame => omega
    · next hne =>
      rcases h.load_apply c with ⟨hsame, -⟩ | ⟨_, _, -, hsize, -⟩ | ⟨_, -, hsize, -⟩
      · exact absurd hsame hne
      · omega
      · omega

/-- A store that is between three eighths and one half full is not resized before one eighth of
its capacity has been added or taken away. -/
theorem capacity_le_sizeChanges {t : Store K V} (ht : t.Sound) (hlow : t.capacity * 3 ≤ t.size * 8)
    (hhigh : t.size * 2 ≤ t.capacity) {between : List (Call K V)} {second : Call K V} :
    let u := (Keyed.run t between).2
    u.capacity = t.capacity → (Keyed.apply u second).2.capacity ≠ u.capacity →
      t.capacity ≤ t.sizeChanges (between ++ [second]) * 8 := by
  intro u hkept hsecond
  have hu : u.Sound := sound_run between ht
  let w := (Keyed.apply u second).2
  have hbetween : u.size ≤ t.size + t.sizeChanges between := (size_run between ht).1
  have hall : t.size ≤ w.size + t.sizeChanges (between ++ [second]) := by
    have hrun : (Keyed.run t (between ++ [second])).2 = w := Keyed.run_append t between [second]
    rw [← hrun]
    exact (size_run _ ht).2
  have hmore : t.sizeChanges between ≤ t.sizeChanges (between ++ [second]) := by
    rw [sizeChanges_append]
    exact Nat.le_add_right _ _
  -- the resize finds three quarters of the capacity in use, or leaves one quarter
  rcases hu.load_of_resize hsecond with ⟨_, _, -, hdouble, huse, -⟩ | ⟨_, -, hhalf, huse⟩
  · rw [hdouble, hkept] at huse
    omega
  · have hhalf : w.capacity * 2 = t.capacity := hhalf.trans hkept
    have huse : w.size * 2 = w.capacity := huse
    omega

/-- In every run of a store, an insertion that changes the capacity doubles it, with three
eighths of the new capacity in use before the insertion, and a removal that changes it halves
it, with one half of the new capacity in use after the removal. No other call changes it. If a
call `first` leaves a new capacity, which the call `second` finds and changes again, the
calls after the first up to the second change the size at least one eighth of it times. -/
theorem resizes_apart (σ : Strategy) (calls : List (Call K V)) :
    let s := (Keyed.run (empty σ : Store K V) calls).2
    ∀ first : Call K V,
      let t := (Keyed.apply s first).2
      (t.capacity = s.capacity ∨
        (∃ key value, first = .insert key value ∧ t.capacity = s.capacity * 2 ∧
          s.keys.length * 8 = t.capacity * 3) ∨
        ∃ key, first = .remove key ∧ t.capacity * 2 = s.capacity ∧
          t.keys.length * 2 = t.capacity) ∧
      ∀ (between : List (Call K V)) (second : Call K V),
        let u := (Keyed.run t between).2
        t.capacity ≠ s.capacity → u.capacity = t.capacity →
        (Keyed.apply u second).2.capacity ≠ u.capacity →
          t.capacity ≤ t.sizeChanges (between ++ [second]) * 8 := by
  intro s first t
  have hs : s.Sound := sound_run calls (sound_empty σ)
  have ht : t.Sound := sound_apply hs first
  constructor
  · rw [hs.length_keys, ht.length_keys]
    by_cases hne : t.capacity = s.capacity
    · exact Or.inl hne
    · rcases hs.load_of_resize hne with ⟨key, value, hc, hdouble, huse, -⟩ | hshrunk
      · exact Or.inr (Or.inl ⟨key, value, hc, hdouble, huse⟩)
      · exact Or.inr (Or.inr hshrunk)
  · intro between second u hfirst hkept hsecond
    obtain ⟨hlow, hhigh⟩ := hs.size_of_resize hfirst
    exact capacity_le_sizeChanges ht hlow hhigh hkept hsecond

/-- The bound is reached : an insertion over one of twelve entries doubles the array, and the
fourth removal after it halves it again. -/
theorem resizes_apart_overwrite :
    let calls := (List.range 12).map fun i => Call.insert i.toUInt8 i
    let s := (Keyed.run (empty (.probing .double) : Store UInt8 Nat) calls).2
    let t := (Keyed.apply s (.insert 0 12)).2
    let between := [Call.remove 0, .remove 1, .get 1, .remove 1, .remove 2]
    let u := (Keyed.run t between).2
    s.capacity = 16 ∧ t.capacity = 32 ∧ u.capacity = 32 ∧
      (Keyed.apply u (.remove 3)).2.capacity = 16 ∧
      t.sizeChanges (between ++ [.remove 3]) = 4 ∧
      t.capacity ≤ t.sizeChanges (between ++ [.remove 3]) * 8 := by
  intro calls s t between u
  have hs : s.capacity = 16 := by decide +kernel
  have ht : t.capacity = 32 := by decide +kernel
  have hu : u.capacity = 32 := by decide +kernel
  have hw : (Keyed.apply u (.remove 3)).2.capacity = 16 := by decide +kernel
  have hcount : t.sizeChanges (between ++ [.remove 3]) = 4 := by decide +kernel
  have hbound := (resizes_apart (.probing .double) calls (.insert 0 12)).2 between (.remove 3)
    (fun h => absurd (ht.symm.trans (h.trans hs)) (by decide)) (hu.trans ht.symm)
    (fun h => absurd (hw.symm.trans (h.trans hu)) (by decide))
  exact ⟨hs, ht, hu, hw, hcount, hbound⟩

end Store

end TableEngine
