import TableEngine.Proofs.Table.Removal

/-!
# Removing what either of two filters accepts

To remove the rows of one filter and then those of another is to remove the rows that either of
them accepts. The second removal meets other keys, in another order and in a smaller array, but all
in all each key that matches is removed once (`Table.perm_matchingKeys_delete`), and what many
removals leave does not depend on their order, not even the capacity
(`View.removeAll_perm`). So two removals commute, and they are one removal if there is a filter for
either, which `OR` writes for a single comparison (`Table.delete_either_after`).
-/

namespace TableEngine

theorem View.removeAll_append {K V : Type} [DecidableEq K] (v : View K V) (keys keys' : List K) :
    v.removeAll (keys ++ keys') = (v.removeAll keys).removeAll keys' :=
  List.foldl_append

/-- The elements that pass the first test, and of the others those that pass the second. -/
theorem perm_filter_or {α : Type} (p q : α → Bool) (xs : List α) :
    (xs.filter p ++ (xs.filter fun x => !p x).filter q).Perm (xs.filter fun x => p x || q x) := by
  have hfirst : (xs.filter fun x => p x || q x).filter p = xs.filter p := by
    rw [List.filter_filter]
    exact List.filter_congr fun x _ => by cases p x <;> simp
  have hsecond : (xs.filter fun x => p x || q x).filter (fun x => !p x) =
      (xs.filter fun x => !p x).filter q := by
    rw [List.filter_filter, List.filter_filter]
    exact List.filter_congr fun x _ => by cases p x <;> simp
  rw [← hfirst, ← hsecond]
  exact List.filter_append_perm p _

namespace Table

/-- One of the filters accepts the row under the key. -/
def matchesEither (t : Table) (f g : Filter) (key : String) : Bool :=
  t.matchesAt f key || t.matchesAt g key

theorem matchesEither_comm (t : Table) (f g : Filter) : t.matchesEither f g = t.matchesEither g f :=
  funext fun _ => Bool.or_comm _ _

/-- A filter followed by `OR` and a comparison matches where either does. -/
theorem matchesAt_append_or (t : Table) {f : Filter} (hf : f.any Term.isTest = true)
    (c : Condition) : t.matchesAt (f ++ [.join .or, .test c]) = t.matchesEither f [.test c] := by
  funext key
  rw [matchesEither, matchesAt, matchesAt, matchesAt]
  cases t.get? key with
  | none => rfl
  | some row => exact Filter.accepts_append_or hf row c

variable {t : Table} (h : t.rows.Sound) (f g : Filter)
include h

/-- What is left matches a filter as it did before. -/
theorem matchesAt_delete (key : String) :
    (t.delete f).2.matchesAt g key = (!t.matchesAt f key && t.matchesAt g key) := by
  rw [matchesAt, matchesAt, matchesAt, get?_delete h]
  cases t.get? key with
  | none => rfl
  | some row => cases hrow : f.accepts row <;> simp [Option.filter, hrow]

/-- Together the removals meet every key that matches, each of them once. -/
theorem perm_matchingKeys_delete : (t.matchingKeys f ++ (t.delete f).2.matchingKeys g).Perm
    (t.keys.filter (t.matchesEither f g)) := by
  have hsecond : ((t.delete f).2.matchingKeys g).Perm
      ((t.keys.filter fun key => !t.matchesAt f key).filter (t.matchesAt g)) := by
    rw [matchingKeys_eq_filter]
    refine ((perm_keys_delete h f).filter _).trans (List.Perm.of_eq ?_)
    rw [List.filter_filter, List.filter_filter]
    refine List.filter_congr fun key _ => ?_
    rw [matchesAt_delete h]
    cases t.matchesAt f key <;> simp
  rw [matchingKeys_eq_filter]
  exact (hsecond.append_left _).trans (perm_filter_or _ _ _)

/-- Two removals leave what the removal of all the keys leaves. -/
theorem delete_delete_shows : ((t.delete f).2.delete g).2.Shows t
    (t.rows.view.removeAll (t.keys.filter (t.matchesEither f g))) := by
  have hfirst : (t.delete f).2.Shows t _ := removeEach_shows (t.matchingKeys f) h
  have hsecond := removeEach_shows ((t.delete f).2.matchingKeys g) hfirst.sound
  rw [hfirst.view_eq, ← View.removeAll_append,
    View.removeAll_perm _ (perm_matchingKeys_delete h f g)] at hsecond
  exact hsecond.trans hfirst

/-- Two removals count every row that one of the filters accepts. -/
theorem count_delete_delete :
    (t.delete f).1 + ((t.delete f).2.delete g).1 = t.keys.countP (t.matchesEither f g) := by
  have hlength := (perm_matchingKeys_delete h f g).length_eq
  rw [List.length_append, matchingKeys_eq_filter, matchingKeys_eq_filter,
    ← List.countP_eq_length_filter, ← List.countP_eq_length_filter,
    ← List.countP_eq_length_filter] at hlength
  rw [count_delete h, count_delete (sound_delete h f)]
  exact hlength

omit h

/-- In every table that changes lead to, two removals in either order answer together the number of
rows that one of the filters accepts, and leave the same : the row under each key, the size and the
capacity. If the second filter is a single comparison and the first compares at all, one removal
with both of them joined by `OR` answers and leaves the same, too. -/
theorem delete_either_after (name : String) (columns : List String) (σ : Strategy)
    (changes : List Change) (f g : Filter) :
    let t := (empty name columns σ).after changes
    let fg := (t.delete f).2.delete g
    let gf := (t.delete g).2.delete f
    let count := t.keys.countP (t.matchesEither f g)
    (∀ key, fg.2.get? key = gf.2.get? key) ∧ fg.2.size = gf.2.size ∧
    fg.2.capacity = gf.2.capacity ∧ (t.delete f).1 + fg.1 = count ∧ (t.delete g).1 + gf.1 = count ∧
    ∀ c : Condition, g = [.test c] → f.any Term.isTest = true →
      let once := t.delete (f ++ [.join .or, .test c])
      once.1 = count ∧ (∀ key, once.2.get? key = fg.2.get? key) ∧ once.2.size = fg.2.size ∧
      once.2.capacity = fg.2.capacity := by
  intro t fg gf count
  have h : t.rows.Sound := sound_after changes (Store.sound_empty σ)
  have hfg : fg.2.rows.view = _ := (delete_delete_shows h f g).view_eq
  have hgf : gf.2.rows.view = _ := (delete_delete_shows h g f).view_eq
  rw [matchesEither_comm] at hgf
  have hview : fg.2.rows.view = gf.2.rows.view := hfg.trans hgf.symm
  refine ⟨congrFun (congrArg View.get? hview), congrArg View.size hview,
    congrArg View.capacity hview, count_delete_delete h f g, ?_, ?_⟩
  · rw [count_delete_delete h g f, matchesEither_comm]
  rintro c rfl hf once
  have honce : once.2.rows.view = _ := (removeEach_shows (t.matchingKeys _) h).view_eq
  rw [matchingKeys_eq_filter, matchesAt_append_or t hf] at honce
  have hsame : once.2.rows.view = fg.2.rows.view := honce.trans hfg.symm
  refine ⟨?_, congrFun (congrArg View.get? hsame), congrArg View.size hsame,
    congrArg View.capacity hsame⟩
  rw [show once.1 = _ from count_delete h _, matchesAt_append_or t hf]

/-- Of thirteen rows the first filter accepts four, the second accepts twelve, and among these are
the four. -/
theorem delete_either_after_overlap :
    let rows := (List.range 13).map fun i =>
      Change.insert (toString i) (.ofPairs [("n", toString i)])
    let t := (empty "t" ["n"] (.probing .linear)).after rows
    let f : Filter := [.test ⟨"n", .less, some "4"⟩]
    let c : Condition := ⟨"n", .unequal, some "5"⟩
    let once := t.delete (f ++ [.join .or, .test c])
    f.any Term.isTest = true ∧ t.capacity = 32 ∧ once.1 = 12 ∧
      (t.delete f).1 + ((t.delete f).2.delete [.test c]).1 = 12 ∧
      (t.delete [.test c]).1 + ((t.delete [.test c]).2.delete f).1 = 12 ∧
      once.2.capacity = 16 ∧ ((t.delete f).2.delete [.test c]).2.capacity = 16 := by
  intro rows t f c once
  have hf : f.any Term.isTest = true := rfl
  have hgrown : t.capacity = 32 := by decide +kernel
  have hcount : once.1 = 12 := by decide +kernel
  have hshrunk : once.2.capacity = 16 := by decide +kernel
  obtain ⟨-, -, -, hfg, hgf, hor⟩ :=
    delete_either_after "t" ["n"] (.probing .linear) rows f [.test c]
  obtain ⟨honce, -, -, hcapacity⟩ := hor c rfl hf
  exact ⟨hf, hgrown, hcount, hfg.trans (honce.symm.trans hcount),
    hgf.trans (honce.symm.trans hcount), hshrunk, hcapacity.symm.trans hshrunk⟩

end Table

end TableEngine
