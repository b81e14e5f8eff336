import TableEngine.Store.Chains
import Mathlib.Data.List.Perm.Basic
import Mathlib.Data.List.Nodup

/-!
# One bucket

A bucket is a list of entries, and a look-up takes the first entry of the key
(`lookup`). As long as no key stands twice in the list this is membership
(`lookup_eq_some_iff`). The three changes of a bucket, a new entry at the end
(`edits_append`), a change in place (`edits_mapValue`), and a removal that moves the
last entry (`edits_swapRemove`), keep the keys distinct and change the look-up of one
key only (`Edits`).
-/

namespace TableEngine

theorem perm_swapRemove {α : Type} {xs : List α} {i : Nat} (hi : i < xs.length) :
    (swapRemove xs i).Perm (xs.eraseIdx i) := by
  obtain ⟨init, last, rfl⟩ : ∃ init last, xs = init ++ [last] := by
    rcases List.eq_nil_or_concat xs with rfl | ⟨init, last, rfl⟩
    · simp at hi
    · exact ⟨init, last, by simp⟩
  have hswap : swapRemove (init ++ [last]) i = ((init ++ [last]).set i last).dropLast := by
    simp [swapRemove]
  rw [hswap]
  simp only [List.length_append, List.length_singleton] at hi
  rcases Nat.lt_succ_iff_lt_or_eq.mp hi with hlt | rfl
  · rw [List.set_append_left _ _ hlt, List.dropLast_concat, List.eraseIdx_append_of_lt_length hlt]
    exact (List.set_perm_cons_eraseIdx hlt last).trans (List.perm_append_singleton last _).symm
  · simp [List.eraseIdx_append_of_length_le]

namespace ChainStore

variable {K V : Type} [DecidableEq K]

/-- The value of the first entry of a key. -/
def lookup (chain : List (Entry K V)) (key : K) : Option V :=
  (chain.find? fun e => e.key = key).map Entry.value

/-- No key stands twice in the bucket. -/
def DistinctKeys (chain : List (Entry K V)) : Prop := (chain.map Entry.key).Nodup

variable {chain rest : List (Entry K V)} {key k : K} {value v : V} {i : Nat}

@[simp] theorem lookup_nil : lookup ([] : List (Entry K V)) key = none := rfl

theorem lookup_cons (e : Entry K V) :
    lookup (e :: chain) key = if e.key = key then some e.value else lookup chain key := by
  unfold lookup
  by_cases h : e.key = key <;> simp [h]

theorem lookup_eq_none_iff : lookup chain key = none ↔ key ∉ chain.map Entry.key := by
  simp [lookup, List.find?_eq_none]

theorem lookup_eq_some_iff (h : DistinctKeys chain) :
    lookup chain key = some value ↔ ⟨key, value⟩ ∈ chain := by
  induction chain with
  | nil => simp
  | cons e chain ih =>
    obtain ⟨hnew, hrest⟩ := List.nodup_cons.mp h
    rw [lookup_cons, List.mem_cons]
    split
    · next hk =>
      subst hk
      have hnot : (⟨e.key, value⟩ : Entry K V) ∉ chain := fun hm =>
        hnew (List.mem_map.mpr ⟨_, hm, rfl⟩)
      simp only [hnot, or_false, Option.some.injEq]
      exact ⟨fun hv => by rw [← hv], fun he => by rw [← he]⟩
    · next hk =>
      rw [ih hrest]
      have : (⟨key, value⟩ : Entry K V) ≠ e := fun he => hk (he ▸ rfl)
      simp [this]

/-! ## Changes of one key -/

/-- The keys of `chain'` are distinct, `key` has the value `r` there, and every other key
the value it has in `chain`. -/
structure Edits (chain chain' : List (Entry K V)) (key : K) (r : Option V) : Prop where
  distinct : DistinctKeys chain'
  lookup_eq : ∀ k, lookup chain' k = if k = key then r else lookup chain k

/-- Only the edited key can be new. -/
theorem Edits.mem_keys {chain' : List (Entry K V)} {r : Option V} (h : Edits chain chain' key r)
    {e : Entry K V} (he : e ∈ chain') : e.key = key ∨ e.key ∈ chain.map Entry.key := by
  rw [or_iff_not_imp_left]
  intro hne
  by_contra hnot
  have hlook := h.lookup_eq e.key
  rw [if_neg hne, lookup_eq_none_iff.mpr hnot, lookup_eq_none_iff] at hlook
  exact hlook (List.mem_map_of_mem he)

theorem edits_append (h : DistinctKeys chain) {e : Entry K V} (hk : lookup chain e.key = none) :
    Edits chain (chain ++ [e]) e.key (some e.value) where
  distinct := by
    rw [lookup_eq_none_iff] at hk
    rw [DistinctKeys, List.map_append, List.map_singleton, List.nodup_append]
    refine ⟨h, List.nodup_singleton _, ?_⟩
    rintro a ha b hb rfl
    exact hk (List.mem_singleton.mp hb ▸ ha)
  lookup_eq k := by
    have hsplit : lookup (chain ++ [e]) k = (lookup chain k).or (lookup [e] k) := by
      simp [lookup, List.find?_append, Option.map_or]
    rw [hsplit, lookup_cons, lookup_nil]
    split
    · next hk' =>
      rw [← hk', hk, if_pos rfl]
      rfl
    · next hk' => rw [if_neg (Ne.symm hk'), Option.or_none]

theorem map_key_mapValue (f : V → V) :
    (mapValue key f chain).map Entry.key = chain.map Entry.key := by
  rw [mapValue, List.map_map]
  refine List.map_congr_left fun e _ => ?_
  simp only [Function.comp]
  split <;> rfl

theorem lookup_mapValue (f : V → V) :
    lookup (mapValue key f chain) k =
      if k = key then (lookup chain key).map f else lookup chain k := by
  induction chain with
  | nil => simp [mapValue]
  | cons e chain ih =>
    rw [mapValue, List.map_cons, ← mapValue, lookup_cons, ih, lookup_cons, lookup_cons]
    rcases eq_or_ne k key with rfl | hk
    · by_cases he : e.key = k <;> simp [he]
    · by_cases he : e.key = key <;> simp [he, hk, hk.symm]

theorem edits_mapValue (h : DistinctKeys chain) (key : K) (f : V → V) :
    Edits chain (mapValue key f chain) key ((lookup chain key).map f) where
  distinct := by
    rw [DistinctKeys, map_key_mapValue]
    exact h
  lookup_eq _ := lookup_mapValue f

/-- Without its entry a key is not found, and every other key is found as before. -/
theorem edits_of_perm_cons (h : DistinctKeys chain) (hp : chain.Perm (⟨key, v⟩ :: rest)) :
    Edits chain rest key none := by
  have hcons : DistinctKeys (⟨key, v⟩ :: rest) := (hp.map Entry.key).nodup_iff.mp h
  obtain ⟨hnew, hrest⟩ := List.nodup_cons.mp hcons
  refine ⟨hrest, fun k => ?_⟩
  split
  · next hk => exact hk ▸ lookup_eq_none_iff.mpr hnew
  · next hk =>
    ext value
    rw [lookup_eq_some_iff hrest, lookup_eq_some_iff h, hp.mem_iff, List.mem_cons]
    simp [hk]

/-! ## The position of a key -/

theorem perm_cons_swapRemove (hi : position? chain key = some i) :
    ∃ v, chain.Perm (⟨key, v⟩ :: swapRemove chain i) := by
  obtain ⟨hlt, hk, -⟩ := List.findIdx?_eq_some_iff_getElem.mp hi
  obtain rfl : chain[i].key = key := by simpa using hk
  refine ⟨chain[i].value, (List.getElem_cons_eraseIdx_perm hlt).symm.trans ?_⟩
  exact List.Perm.cons _ (perm_swapRemove hlt).symm

theorem edits_swapRemove (h : DistinctKeys chain) (hi : position? chain key = some i) :
    Edits chain (swapRemove chain i) key none := by
  obtain ⟨v, hp⟩ := perm_cons_swapRemove hi
  exact edits_of_perm_cons h hp

theorem length_swapRemove (hi : position? chain key = some i) :
    (swapRemove chain i).length + 1 = chain.length := by
  obtain ⟨v, hp⟩ := perm_cons_swapRemove hi
  exact hp.length_eq.symm

theorem isSome_lookup_of_position? (hi : position? chain key = some i) :
    (lookup chain key).isSome := by
  obtain ⟨hlt, hk, -⟩ := List.findIdx?_eq_some_iff_getElem.mp hi
  rw [Option.isSome_iff_ne_none, Ne, lookup_eq_none_iff, not_not]
  exact (by simpa using hk : chain[i].key = key) ▸ List.mem_map_of_mem (List.getElem_mem hlt)

theorem lookup_of_position?_eq_none (h : position? chain key = none) : lookup chain key = none := by
  rw [lookup_eq_none_iff]
  intro hk
  obtain ⟨e, he, rfl⟩ := List.mem_map.mp hk
  simpa using List.findIdx?_eq_none_iff.mp h e he

end ChainStore

end TableEngine
