import TableEngine.Proofs.Store.Outline
import TableEngine.Proofs.Table.Selection

/-!
# Setting a column in the rows that a filter accepts

An update collects the keys of the rows that the filter accepts, and then sets the column under
each of them. The filter may read the column that is set : it does so before anything is
written, so the answer is the number of rows accepted before (`Table.count_update`), and these
are the rows that change (`Table.get?_update`).

Rows change where they are. The store keeps its outline (`Table.outline_update`), that
is its capacity, its tombstones and the place of each key, also when the column is the one that
the keys were taken from.
-/

namespace TableEngine.Table

variable {t : Table} (column value : String)

/-! ## Places -/

theorem outline_setValue (t : Table) (key : String) :
    (t.setValue key column value).rows.outline = t.rows.outline :=
  t.rows.outline_modify key _

theorem outline_setEach : ∀ (keys : List String) (t : Table),
    (t.setEach column value keys).2.rows.outline = t.rows.outline
  | [], _ => rfl
  | key :: keys, t => by
    unfold setEach
    split
    · exact outline_setEach keys t
    · exact (outline_setEach keys _).trans (outline_setValue column value t key)

theorem outline_update (t : Table) (f : Filter) :
    (t.update column value f).2.rows.outline = t.rows.outline :=
  outline_setEach column value (t.matchingKeys f) t

/-! ## Rows -/

section Rows

variable (h : t.rows.Sound) (f : Filter)
include h

/-- Every row that is accepted is counted, and no other. -/
theorem count_update : (t.update column value f).1 = t.keys.countP (t.matchesAt f) := by
  have hall : ∀ key ∈ t.matchingKeys f, (t.get? key).isSome = true := fun key hkey => by
    obtain ⟨row, hrow, -⟩ := (mem_matchingKeys_iff h).mp hkey
    rw [hrow, Option.isSome_some]
  rw [update, count_setEach _ _ _ h, List.countP_eq_length.mpr hall, matchingKeys_eq_filter,
    List.countP_eq_length_filter]

/-- A row that is accepted has the new value in the column, and is otherwise as it was. -/
theorem get?_update_of_accepts {key : String} {row : Row} (hrow : t.get? key = some row)
    (haccepts : f.accepts row = true) : ∃ row', (t.update column value f).2.get? key = some row' ∧
      row'.get? column = some value ∧ ∀ c, c ≠ column → row'.get? c = row.get? c := by
  refine ⟨row.set column value, ?_, ?_, fun c hc => ?_⟩
  · rw [get?_update h, hrow, Option.map_some, if_pos haccepts]
  · rw [Row.get?_set, if_pos rfl]
  · rw [Row.get?_set, if_neg hc]

/-- Under a key that does not match, nothing has changed. -/
theorem get?_update_of_not_matchesAt {key : String} (hkey : t.matchesAt f key = false) :
    (t.update column value f).2.get? key = t.get? key := by
  rw [get?_update h]
  cases hrow : t.get? key with
  | none => rfl
  | some row =>
    have haccepts : f.accepts row = false := by rwa [matchesAt, hrow, Option.any_some] at hkey
    rw [Option.map_some, haccepts, if_neg Bool.false_ne_true]

end Rows

/-- In every table that changes lead to, an update of a column, declared or not, answers the
number of rows that the filter accepted before, which is also the number of rows that a
selection listed. Each of these has the new value in the column and is otherwise as it was;
under every other key, nothing has changed. The scheme is kept, and so is the outline of the
store : its keys in their order, its size, its capacity and its tombstones. -/
theorem update_after (name : String) (columns : List String) (σ : Strategy)
    (changes : List Change) (column value : String) (f : Filter) :
    let t := (empty name columns σ).after changes
    let count := (t.update column value f).1
    let t' := (t.update column value f).2
    count = t.keys.countP (t.matchesAt f) ∧ count = (t.select f).size ∧
    (∀ key row, t.get? key = some row → f.accepts row = true →
      ∃ row', t'.get? key = some row' ∧ row'.get? column = some value ∧
        ∀ c, c ≠ column → row'.get? c = row.get? c) ∧
    (∀ key, t.matchesAt f key = false → t'.get? key = t.get? key) ∧
    t'.SameScheme t ∧ t'.rows.outline = t.rows.outline ∧ t'.keys = t.keys ∧ t'.size = t.size ∧
    t'.capacity = t.capacity ∧ t'.rows.tombstones = t.rows.tombstones := by
  intro t count t'
  have h : t.rows.Sound := sound_after changes (Store.sound_empty σ)
  have hcount : count = t.keys.countP (t.matchesAt f) := count_update column value h f
  have houtline : t'.rows.outline = t.rows.outline := outline_update column value t f
  exact ⟨hcount, hcount.trans (size_select t f).symm,
    fun _ _ => get?_update_of_accepts column value h f,
    fun _ => get?_update_of_not_matchesAt column value h f, sameScheme_setEach column value _ t,
    houtline, Store.keys_eq_of_outline houtline, Store.size_eq_of_outline houtline,
    Store.capacity_eq_of_outline houtline, Store.tombstones_eq_of_outline houtline⟩

end TableEngine.Table
