import TableEngine.Proofs.Table.Rows
import TableEngine.Proofs.Table.Scheme

/-!
# The rows of every table that changes lead to

`Table.Change` is one of the ways to change a table, and `Table.after` makes a list of changes
one after another. An insertion is the only one that looks at the declared columns; a change in
place or an update sets any column of a row that is there.

`Table.get?_change_cases` says once where the rows after a change come from : each was there
before, as it is or but for one column, or was inserted with every declared column. So every
row of every table that changes lead to has a value for every declared column, and a selection
never misses one (`Table.complete_after`).
-/

namespace TableEngine

/-- A column that is set is not lost, and neither is any other. -/
theorem Row.contains_set {row : Row} {c : String} (h : row.contains c = true)
    (column value : String) : (row.set column value).contains c = true := by
  rw [contains, get?_set]
  split
  · rfl
  · exact h

namespace Table

/-- One change of a table. -/
inductive Change
  | insert (key : String) (row : Row)
  | remove (key : String)
  /-- Set a column, declared or not, of the row under a key. -/
  | setValue (key column value : String)
  | update (column value : String) (f : Filter)
  | delete (f : Filter)

/-- The table after a change, also after an insertion that is refused. -/
def change (t : Table) : Change → Table
  | .insert key row => (t.put key row).2
  | .remove key => (t.remove key).2
  | .setValue key column value => t.setValue key column value
  | .update column value f => (t.update column value f).2
  | .delete f => (t.delete f).2

/-- The table after a list of changes. -/
def after (t : Table) (changes : List Change) : Table := changes.foldl change t

/-! ## One change -/

section Change

variable {t : Table} {k : String} {row : Row}

theorem change_of_insert_ok {t' : Table} {key : String} (h : t.insert key row = .ok t') :
    t.change (.insert key row) = t' := by
  rw [change, put_eq, h]

theorem change_of_insert_error {fault : Fault} {key : String}
    (h : t.insert key row = .error fault) : t.change (.insert key row) = t := by
  rw [change, put_eq, h]

/-- A change keeps the name, the columns and the strategy. -/
theorem sameScheme_change (t : Table) (c : Change) : (t.change c).SameScheme t := by
  cases c with
  | insert key row =>
    cases h : t.insert key row with
    | ok t' =>
      rw [change_of_insert_ok h]
      exact sameScheme_insert h
    | error fault =>
      rw [change_of_insert_error h]
      exact .refl t
  | remove key => exact t.sameScheme_remove key
  | setValue key column value => exact t.sameScheme_setValue key column value
  | update column value f => exact sameScheme_setEach column value _ t
  | delete f => exact sameScheme_removeEach _ t

variable (h : t.rows.Sound)
include h

theorem get?_remove (key k : String) :
    (t.remove key).2.get? k = if k = key then none else t.get? k := by
  have hget : (t.remove key).2.get? k = _ :=
    congrFun (congrArg View.get? (remove_shows key h).view_eq) k
  rw [hget, View.get?_remove]
  rfl

theorem get?_setValue (key column value k : String) : (t.setValue key column value).get? k =
    if k = key then (t.get? k).map (Row.set · column value) else t.get? k := by
  have hget : (t.setValue key column value).get? k = _ :=
    congrFun (congrArg View.get? (setValue_shows column value key h).view_eq) k
  rw [hget, View.get?_modify]
  rfl

theorem sound_change (c : Change) : (t.change c).rows.Sound := by
  cases c with
  | insert key row =>
    cases ht : t.insert key row with
    | ok t' =>
      rw [change_of_insert_ok ht]
      exact sound_insert h ht
    | error fault =>
      rw [change_of_insert_error ht]
      exact h
  | remove key => exact (remove_shows key h).sound
  | setValue key column value => exact (setValue_shows column value key h).sound
  | update column value f => exact sound_update h column value f
  | delete f => exact sound_delete h f

/-- After a change, every row was there before, except for a column that was set in it, or
was inserted with every declared column. -/
theorem get?_change_cases {c : Change} (hrow : (t.change c).get? k = some row) :
    t.get? k = some row ∨
    (∃ old column value, t.get? k = some old ∧ row = old.set column value) ∨
    (c = .insert k row ∧ ∀ column ∈ t.columns, row.contains column = true) := by
  cases c with
  | insert key new =>
    cases ht : t.insert key new with
    | ok t' =>
      rw [change_of_insert_ok ht, get?_insert h ht] at hrow
      split at hrow
      · next hk =>
        cases hk
        cases hrow
        exact Or.inr (Or.inr ⟨rfl, (insert_eq_ok_iff.mp ht).1⟩)
      · exact Or.inl hrow
    | error fault =>
      rw [change_of_insert_error ht] at hrow
      exact Or.inl hrow
  | remove key =>
    rw [change, get?_remove h] at hrow
    split at hrow
    · cases hrow
    · exact Or.inl hrow
  | setValue key column value =>
    rw [change, get?_setValue h] at hrow
    split at hrow
    · obtain ⟨old, hold, rfl⟩ := Option.map_eq_some_iff.mp hrow
      exact Or.inr (Or.inl ⟨old, column, value, hold, rfl⟩)
    · exact Or.inl hrow
  | update column value f =>
    rw [change, get?_update h] at hrow
    obtain ⟨old, hold, rfl⟩ := Option.map_eq_some_iff.mp hrow
    split
    · exact Or.inr (Or.inl ⟨old, column, value, hold, rfl⟩)
    · exact Or.inl hold
  | delete f =>
    rw [change, get?_delete h, Option.filter_eq_some_iff] at hrow
    exact Or.inl hrow.1

end Change

/-! ## All changes -/

/-- Sound rows, each with a value for every declared column. -/
structure Complete (t : Table) : Prop where
  sound : t.rows.Sound
  contains : ∀ {key row}, t.get? key = some row → ∀ column ∈ t.columns, row.contains column = true

theorem sameScheme_after : ∀ (changes : List Change) (t : Table), (t.after changes).SameScheme t
  | [], t => .refl t
  | c :: changes, t => (sameScheme_after changes (t.change c)).trans (t.sameScheme_change c)

theorem sound_after : ∀ (changes : List Change) {t : Table}, t.rows.Sound →
    (t.after changes).rows.Sound
  | [], _, h => h
  | c :: changes, _, h => sound_after changes (sound_change h c)

namespace Complete

variable {t : Table}

theorem empty (name : String) (columns : List String) (σ : Strategy) :
    (Table.empty name columns σ).Complete where
  sound := Store.sound_empty σ
  contains hrow := by
    rw [get?_empty] at hrow
    cases hrow

theorem change (h : t.Complete) (c : Change) : (t.change c).Complete where
  sound := sound_change h.sound c
  contains {key row} hrow := by
    rw [(t.sameScheme_change c).columns_eq]
    rcases get?_change_cases h.sound hrow with hold | ⟨old, column, value, hold, rfl⟩ | ⟨-, hall⟩
    · exact h.contains hold
    · exact fun d hd => Row.contains_set (h.contains hold d hd) column value
    · exact hall

theorem after : ∀ (changes : List Change) {t : Table}, t.Complete → (t.after changes).Complete
  | [], _, h => h
  | c :: changes, _, h => after changes (h.change c)

end Complete

/-- In every table that changes lead to, every key has a row, and every row has a value for
every declared column, so no selection misses one. One more row is stored as it is if it has
every declared column. Otherwise it is refused, with exactly the declared columns that it lacks,
and the table that comes with the answer is the one that was there. -/
theorem complete_after (name : String) (columns : List String) (σ : Strategy)
    (changes : List Change) :
    let t := (empty name columns σ).after changes
    (∀ key ∈ t.keys, ∃ row, t.get? key = some row) ∧
    (∀ key row, t.get? key = some row → ∀ column ∈ columns, ∃ value, row.get? column = some value) ∧
    (∀ f, ∀ values ∈ (t.select f).rows, values.length = columns.length ∧ none ∉ values) ∧
    ∀ key row,
      let lacking := columns.filter fun column => row.get? column = none
      match t.put key row with
      | (.ok (), t') => lacking = [] ∧ t.change (.insert key row) = t' ∧
          ∀ k, t'.get? k = if k = key then some row else t.get? k
      | (.error fault, t') => lacking ≠ [] ∧ fault = .rowShape name lacking ∧ t' = t ∧
          t.change (.insert key row) = t := by
  intro t
  have ht : t.Complete := .after changes (.empty name columns σ)
  have hscheme : t.SameScheme (empty name columns σ) := sameScheme_after changes _
  have hcolumns : t.columns = columns := hscheme.columns_eq
  have hvalue : ∀ key row, t.get? key = some row → ∀ column ∈ columns,
      ∃ value, row.get? column = some value := fun key row hrow column hc =>
    Option.isSome_iff_exists.mp (ht.contains hrow column (hcolumns ▸ hc))
  refine ⟨fun key hkey => ?_, hvalue, fun f values hvalues => ?_, fun key row => ?_⟩
  · exact Option.isSome_iff_exists.mp ((ht.sound.mem_keys_iff key).mp hkey)
  · obtain ⟨key, row, hrow, -, rfl⟩ := (mem_rows_select ht.sound).mp hvalues
    rw [project, List.length_map, hcolumns]
    refine ⟨rfl, fun hnone => ?_⟩
    obtain ⟨column, hc, hget⟩ := List.mem_map.mp hnone
    obtain ⟨value, hvalue⟩ := hvalue key row hrow column hc
    rw [hvalue] at hget
    cases hget
  · have hlacking : t.missing row = columns.filter fun column => row.get? column = none := by
      rw [missing, hcolumns]
      refine List.filter_congr fun column _ => ?_
      cases hget : row.get? column <;> simp [Row.contains, hget]
    rw [← hlacking]
    rcases insert_cases t key row with ⟨hnil, hinsert⟩ | ⟨hne, hinsert⟩
    · rw [put_eq, hinsert]
      exact ⟨hnil, change_of_insert_ok hinsert, get?_insert ht.sound hinsert⟩
    · rw [put_eq, hinsert]
      exact ⟨hne, by rw [hscheme.name_eq]; rfl, rfl, change_of_insert_error hinsert⟩

end Table

end TableEngine
