import TableEngine.Proofs.Row.Evaluation
import TableEngine.Proofs.Table.Changes

/-!
# The rows that a selection lists

A selection walks the keys of the table and looks each of them up again. Of a sound store every
key that is listed has a row, so nothing is passed over : the answer has one line for each
key whose row is accepted, in the order of the keys (`Table.select_after`). That lines and keys
belong together, one by one, holds of every table (`Table.forall₂_select`).
-/

namespace TableEngine

namespace Table

variable {t : Table}

/-! ## Keys and lines -/

/-- There is a row under the key, and the filter accepts it. -/
def matchesAt (t : Table) (f : Filter) (key : String) : Bool := (t.get? key).any f.accepts

theorem matchingKeys_eq_filter (t : Table) (f : Filter) :
    t.matchingKeys f = t.keys.filter (t.matchesAt f) := by
  refine List.filter_congr fun key _ => ?_
  rw [matchesAt]
  cases t.get? key <;> rfl

/-- The line shows the row under the key, a value for each declared column. -/
def Shown (t : Table) (key : String) (line : List (Option String)) : Prop :=
  ∃ row, t.get? key = some row ∧ line = t.columns.map row.get?

theorem forall₂_shown (t : Table) (f : Filter) : ∀ keys : List String,
    List.Forall₂ t.Shown (keys.filter (t.matchesAt f))
      (((keys.filterMap t.get?).filter f.accepts).map t.project)
  | [] => .nil
  | key :: keys => by
    have ih := forall₂_shown t f keys
    cases hkey : t.get? key with
    | none =>
      -- passed over on both sides, though a sound store lists no such key
      have hmatch : ¬t.matchesAt f key = true := by simp [matchesAt, hkey]
      rwa [List.filter_cons_of_neg hmatch, List.filterMap_cons_none hkey]
    | some row =>
      have hmatch : t.matchesAt f key = f.accepts row := by rw [matchesAt, hkey, Option.any_some]
      rw [List.filterMap_cons_some hkey]
      by_cases haccepts : f.accepts row = true
      · rw [List.filter_cons_of_pos (hmatch.trans haccepts), List.filter_cons_of_pos haccepts]
        exact .cons ⟨row, hkey, rfl⟩ ih
      · rwa [List.filter_cons_of_neg (hmatch ▸ haccepts), List.filter_cons_of_neg haccepts]

/-- The lines of a selection show the rows under the keys that match, one after another. -/
theorem forall₂_select (t : Table) (f : Filter) :
    List.Forall₂ t.Shown (t.keys.filter (t.matchesAt f)) (t.select f).rows :=
  t.forall₂_shown f t.keys

/-- A selection has a line for each of the keys whose row is accepted. -/
theorem size_select (t : Table) (f : Filter) :
    (t.select f).size = t.keys.countP (t.matchesAt f) := by
  rw [Answer.size, ← (t.forall₂_select f).length_eq, List.countP_eq_length_filter]

/-- A filter without comparisons selects every row. -/
theorem size_select_of_forall_not_mem (h : t.rows.Sound) {f : Filter} (hf : ∀ c, .test c ∉ f) :
    (t.select f).size = t.size := by
  have hall : ∀ key ∈ t.keys, t.matchesAt f key = true := fun key hkey => by
    obtain ⟨row, hrow⟩ := Option.isSome_iff_exists.mp ((h.mem_keys_iff key).mp hkey)
    rw [matchesAt, get?, hrow, Option.any_some, Filter.accepts_of_forall_not_mem hf]
  rw [size_select, List.countP_eq_length.mpr hall]
  exact h.length_keys

/-- In every table that changes lead to, each key with a row is listed once, and no other key
is. A selection answers, in the order of the keys, one line for each key whose row the filter
accepts : the values of that row in the order of the declared columns. Without a
comparison in the filter, there are as many lines as rows. -/
theorem select_after (name : String) (columns : List String) (σ : Strategy)
    (changes : List Change) (f : Filter) :
    let t := (empty name columns σ).after changes
    t.keys.Nodup ∧ (∀ key, key ∈ t.keys ↔ ∃ row, t.get? key = some row) ∧
    (t.select f).columns = columns ∧
    List.Forall₂ (fun key line => ∃ row, t.get? key = some row ∧ line = columns.map row.get?)
      (t.keys.filter fun key => (t.get? key).any f.accepts) (t.select f).rows ∧
    ((∀ c, .test c ∉ f) → (t.select f).size = t.size) := by
  intro t
  have h : t.rows.Sound := sound_after changes (Store.sound_empty σ)
  have hcolumns : t.columns = columns := (sameScheme_after changes _).columns_eq
  have hlines := t.forall₂_select f
  unfold Shown at hlines
  rw [hcolumns] at hlines
  exact ⟨h.nodup_keys, fun key => (h.mem_keys_iff key).trans Option.isSome_iff_exists, hcolumns,
    hlines, size_select_of_forall_not_mem h⟩

end Table

end TableEngine
