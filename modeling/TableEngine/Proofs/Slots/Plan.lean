import TableEngine.Proofs.Checked.Slots

/-!
# A plan takes the first free slots

A plan gives each hash, in turn, the first slot of its sequence that no hash before it was given
(`FirstOutside`). It looks at nothing but the hashes, which may be equal. If there are no more of
them than slots, the plan does not fail (`plan_first_free`) : whenever a slot is looked for, not
all of them have been given (`exists_lt_not_mem`), and the sequence visits one of the others
(`exists_firstFree`).

`exists_planFrom` is the induction over the hashes. It carries along the slots given so far, which
are the ones that are marked as taken (`Marks`).
-/

namespace TableEngine

/-- The slot `i` is the first on the sequence of `hash` that is none of `earlier`. -/
def FirstOutside (p : Probe) (hash : UInt64) (capacity : Nat) (earlier : List Nat) (i : Nat) :
    Prop :=
  ∃ attempt < capacity, p.slot hash attempt capacity = i ∧ i ∉ earlier ∧
    ∀ a < attempt, p.slot hash a capacity ∈ earlier

/-- The slots marked as taken are those of the list. -/
def Marks (taken : Array Bool) (earlier : List Nat) : Prop :=
  ∀ i < taken.size, taken.getD i true = true ↔ i ∈ earlier

variable {p : Probe} {hash : UInt64} {taken : Array Bool} {earlier : List Nat} {i n : Nat}

theorem FirstOutside.lt (h : FirstOutside p hash n earlier i) : i < n := by
  obtain ⟨attempt, hlt, rfl, -⟩ := h
  exact p.slot_lt hash attempt (by omega)

theorem FirstOutside.not_mem (h : FirstOutside p hash n earlier i) : i ∉ earlier := by
  obtain ⟨-, -, -, hi, -⟩ := h
  exact hi

theorem marks_replicate (capacity : Nat) : Marks (Array.replicate capacity false) [] := by
  intro i hi
  rw [Array.size_replicate] at hi
  simp [hi]

theorem Marks.set (h : Marks taken earlier) :
    Marks (taken.setIfInBounds i true) (earlier ++ [i]) := by
  intro j hj
  rw [Array.size_setIfInBounds] at hj
  rw [List.mem_append, List.mem_singleton, Array.getD_eq_getD_getElem?,
    Array.getElem?_setIfInBounds]
  split
  · next heq => simp [heq, hj]
  · next hne =>
    rw [← Array.getD_eq_getD_getElem?, h j hj]
    exact ⟨Or.inl, fun hj => hj.resolve_right fun heq => hne heq.symm⟩

/-- Fewer numbers than `n` leave out one below `n`. -/
theorem exists_lt_not_mem (h : earlier.length < n) : ∃ i < n, i ∉ earlier := by
  by_contra hall
  have hsub : List.range n ⊆ earlier := fun i hi => by
    by_contra hnot
    exact hall ⟨i, List.mem_range.mp hi, hnot⟩
  have hlength := (List.nodup_range.subperm hsub).length_le
  rw [List.length_range] at hlength
  omega

/-- The walk for a free slot ends at the first slot outside, if there is one ahead. -/
theorem exists_firstFree_of_exists (h : Marks taken earlier) :
    ∀ left attempt : Nat, attempt + left ≤ taken.size →
      (∀ a < attempt, p.slot hash a taken.size ∈ earlier) →
      (∃ a < attempt + left, p.slot hash a taken.size ∉ earlier) →
      ∃ i, firstFree p taken hash attempt left = some i ∧ FirstOutside p hash taken.size earlier i
  | 0, attempt, _, hbefore, ⟨a, ha, hfree⟩ => absurd (hbefore a ha) hfree
  | left + 1, attempt, hle, hbefore, ⟨a, ha, hfree⟩ => by
    have hslot := p.slot_lt hash attempt (show 0 < taken.size by omega)
    by_cases hmem : p.slot hash attempt taken.size ∈ earlier
    · have hnext : ∀ a < attempt + 1, p.slot hash a taken.size ∈ earlier := fun b hb => by
        rcases Nat.lt_succ_iff_lt_or_eq.mp hb with hb | rfl
        · exact hbefore b hb
        · exact hmem
      rw [firstFree, if_pos ((h _ hslot).mpr hmem)]
      exact exists_firstFree_of_exists h left (attempt + 1) (by omega) hnext
        ⟨a, by omega, hfree⟩
    · rw [firstFree, if_neg (mt (h _ hslot).mp hmem)]
      exact ⟨_, rfl, attempt, by omega, rfl, hmem, hbefore⟩

/-- As long as a slot is left the walk for a free slot ends. -/
theorem exists_firstFree (p : Probe) (hash : UInt64) {k : Nat} (h : Marks taken earlier)
    (hcap : taken.size = 2 ^ k) (hroom : earlier.length < taken.size) :
    ∃ i, firstFree p taken hash 0 taken.size = some i ∧
      FirstOutside p hash taken.size earlier i := by
  obtain ⟨i, hi, hfree⟩ := exists_lt_not_mem hroom
  obtain ⟨a, ha, rfl⟩ := p.exists_attempt hash hcap hi
  exact exists_firstFree_of_exists h taken.size 0 (by omega) nofun ⟨a, by omega, hfree⟩

theorem exists_planFrom {k : Nat} : ∀ {hashes : List UInt64} {taken : Array Bool}
    {earlier : List Nat}, Marks taken earlier → taken.size = 2 ^ k →
    earlier.length + hashes.length ≤ taken.size →
    ∃ places, planFrom p taken hashes = some places ∧ places.length = hashes.length ∧
      ∀ (n : Nat) hash i, hashes[n]? = some hash → places[n]? = some i →
        FirstOutside p hash taken.size (earlier ++ places.take n) i
  | [], _, _, _, _, _ => ⟨[], rfl, rfl, nofun⟩
  | hash :: hashes, taken, earlier, h, hcap, hroom => by
    rw [List.length_cons] at hroom
    obtain ⟨i, hi, hfirst⟩ := exists_firstFree p hash h hcap (by omega)
    -- for the hashes after it this slot is one of those given before
    obtain ⟨places, hplan, hlength, hrest⟩ := exists_planFrom (h.set (i := i))
      (by rwa [Array.size_setIfInBounds])
      (show (earlier ++ [i]).length + hashes.length ≤ _ by
        rw [Array.size_setIfInBounds, List.length_append, List.length_singleton]; omega)
    refine ⟨i :: places, by simp [planFrom, hi, hplan], by simp [hlength], ?_⟩
    intro n hash' i' hhash hplace
    cases n with
    | zero =>
      obtain rfl : hash = hash' := Option.some.inj hhash
      obtain rfl : i = i' := Option.some.inj hplace
      rwa [List.take_zero, List.append_nil]
    | succ n =>
      have hstep := hrest n hash' i' hhash hplace
      rwa [Array.size_setIfInBounds, List.append_assoc, List.singleton_append] at hstep

/-- A list in which nothing stands among what is before it names nothing twice. -/
theorem nodup_of_not_mem_take {places : List Nat}
    (h : ∀ (n : Nat) i, places[n]? = some i → i ∉ places.take n) : places.Nodup := by
  rw [List.Nodup, List.pairwise_iff_getElem]
  intro m n hm hn hlt heq
  refine h n places[n] (List.getElem?_eq_getElem hn) (List.mem_take_iff_getElem.mpr ⟨m, ?_, heq⟩)
  omega

/-- Any list of hashes that is no longer than the array has a plan, and nothing in it overflows a
word, reads outside the array or runs out of slots. The plan has one slot for each hash, all of
them in the array and no two the same : each is the first on the sequence of its hash that the
hashes before it were not given. -/
theorem plan_first_free (p : Probe) {k : Nat} (hk : k ≤ 32) {hashes : List UInt64}
    (hroom : hashes.length ≤ 2 ^ k) :
    ∃ places, plan p hashes (2 ^ k) = some places ∧
      checkedPlan p hashes (2 ^ k) = .ok places ∧
      places.length = hashes.length ∧ (∀ i ∈ places, i < 2 ^ k) ∧ places.Nodup ∧
      ∀ (n : Nat) hash i, hashes[n]? = some hash → places[n]? = some i →
        FirstOutside p hash (2 ^ k) (places.take n) i := by
  have hcap : 2 ^ k ≤ 2 ^ 32 := Nat.pow_le_pow_right (by decide) hk
  obtain ⟨places, hplan, hlength, hfirst⟩ := exists_planFrom (p := p)
    (marks_replicate (2 ^ k)) Array.size_replicate (by simpa using hroom)
  simp only [Array.size_replicate, List.nil_append] at hfirst
  have hchecked : checkedPlan p hashes (2 ^ k) = .ok places := by
    rw [checkedPlan_eq p hashes hcap, plan, hplan]
    rfl
  -- every slot of the plan is the slot of one of the hashes
  have hplaced : ∀ (n : Nat) i, places[n]? = some i →
      ∃ hash, FirstOutside p hash (2 ^ k) (places.take n) i := fun n i hi => by
    have hn : n < hashes.length := hlength ▸ (List.getElem?_eq_some_iff.mp hi).1
    exact ⟨hashes[n], hfirst n _ i (List.getElem?_eq_getElem hn) hi⟩
  refine ⟨places, hplan, hchecked, hlength, fun i hi => ?_, ?_, hfirst⟩
  · obtain ⟨n, hn⟩ := List.mem_iff_getElem?.mp hi
    obtain ⟨hash, h⟩ := hplaced n i hn
    exact h.lt
  · refine nodup_of_not_mem_take fun n i hi => ?_
    obtain ⟨hash, h⟩ := hplaced n i hi
    exact h.not_mem

/-- An array can be filled up with equal hashes. -/
theorem plan_first_free_equal : (List.replicate 16 (7 : UInt64)).length ≤ 2 ^ 4 ∧
    ∃ places, plan .double (List.replicate 16 7) (2 ^ 4) = some places ∧
      checkedPlan .double (List.replicate 16 7) (2 ^ 4) = .ok places ∧
      places.length = (List.replicate 16 (7 : UInt64)).length ∧ (∀ i ∈ places, i < 2 ^ 4) ∧
      places.Nodup ∧ ∀ (n : Nat) hash i, (List.replicate 16 (7 : UInt64))[n]? = some hash →
        places[n]? = some i → FirstOutside .double hash (2 ^ 4) (places.take n) i :=
  ⟨by decide, plan_first_free .double (by decide) (by decide)⟩

end TableEngine
