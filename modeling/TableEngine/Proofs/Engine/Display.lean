import TableEngine.Proofs.Engine.Reached
import Mathlib.Data.Set.List

/-!
# The text of an answer

The text of an answer separates cells with tabs and lines with line feeds, and quotes nothing.
It can be read back all the same (`Answer.pieces_text`) if there is a column at all, no value is
missing, and no cell has a tab or a line feed : then the parts of its lines are the names of
the columns and the rows.

Every answer of a database that texts lead to is of this kind (`Database.text_select_after`),
because every table is orderly and a tidy text has neither character.
-/

namespace TableEngine

open Text

/-! ## Lines and cells -/

namespace Answer

/-- The line of some cells. -/
def line (cells : List String) : String := "\t".intercalate cells

theorem rowLine_map_some (cells : List String) : rowLine (cells.map some) = line cells := by
  simp [rowLine, line, Function.comp_def]

section Cells

variable {cells : List String} (h : ∀ cell ∈ cells, Tidy cell)
include h

theorem pieces_line (hne : cells ≠ []) : pieces '\t' (line cells) = cells :=
  pieces_intercalate hne fun cell hcell => (h cell hcell).not_mem (by decide) (by decide)

/-- The blanks of a line are tabs and spaces. -/
theorem not_mem_line {c : Char} (hblank : isBlank c = true) (hspace : c ≠ ' ') (htab : c ≠ '\t') :
    c ∉ (line cells).toList := by
  intro hmem
  rcases mem_or_exists_of_mem_intercalate hmem with hsep | ⟨cell, hcell, hmem⟩
  · exact htab (by simpa using hsep)
  · exact (h cell hcell).not_mem hblank hspace hmem

end Cells

/-- The text of tidy cells, on lines that are not empty, gives the lines and their cells. -/
theorem pieces_text {a : Answer} {rows : List (List String)}
    (hrows : a.rows = rows.map (·.map some))
    (h : ∀ cells ∈ a.columns :: rows, cells ≠ [] ∧ ∀ cell ∈ cells, Tidy cell) :
    (pieces '\n' a.text).map (pieces '\t') = a.columns :: rows := by
  have htext : a.text = "\n".intercalate ((a.columns :: rows).map line) := by
    have hlines : a.rows.map rowLine = rows.map line := by
      rw [hrows, List.map_map]
      exact List.map_congr_left fun cells _ => rowLine_map_some cells
    rw [text, hlines]
    rfl
  have hlines : pieces '\n' a.text = (a.columns :: rows).map line := by
    rw [htext]
    refine pieces_intercalate (by simp) (List.forall_mem_map.mpr fun cells hcells => ?_)
    exact not_mem_line (h cells hcells).2 (by decide) (by decide) (by decide)
  calc (pieces '\n' a.text).map (pieces '\t')
      = (a.columns :: rows).map fun cells => pieces '\t' (line cells) := by
        rw [hlines, List.map_map]
        rfl
    _ = (a.columns :: rows).map id :=
        List.map_congr_left fun cells hcells => pieces_line (h cells hcells).2 (h cells hcells).1
    _ = a.columns :: rows := List.map_id _

end Answer

/-! ## Selections -/

namespace Table.Orderly

variable {t : Table} (h : t.Orderly) (f : Filter)
include h

/-- A selection lists a tidy value for every column of every row. -/
theorem exists_rows_select : ∃ rows : List (List String),
    (t.select f).rows = rows.map (·.map some) ∧
      ∀ cells ∈ rows, cells.length = t.columns.length ∧ ∀ cell ∈ cells, Tidy cell := by
  have hfull : (t.select f).rows ∈ Set.range (List.map (List.map some)) := by
    rw [Set.range_list_map]
    intro values hvalues
    rw [Set.range_list_map]
    intro value hvalue
    obtain ⟨key, row, hrow, -, rfl⟩ := (mem_rows_select h.sound).mp hvalues
    obtain ⟨column, hcolumn, rfl⟩ := List.mem_map.mp hvalue
    obtain ⟨cell, hcell⟩ := Option.isSome_iff_exists.mp ((h.rows hrow).contains column hcolumn)
    exact ⟨cell, hcell.symm⟩
  obtain ⟨rows, hrows⟩ := hfull
  refine ⟨rows, hrows.symm, fun cells hcells => ?_⟩
  have hmem : cells.map some ∈ (t.select f).rows := hrows ▸ List.mem_map_of_mem hcells
  obtain ⟨key, row, hrow, -, hproject⟩ := (mem_rows_select h.sound).mp hmem
  refine ⟨?_, fun cell hcell => ?_⟩
  · simpa [project] using congrArg List.length hproject.symm
  · have hvalue : some cell ∈ t.project row := hproject ▸ List.mem_map_of_mem hcell
    obtain ⟨column, -, hcolumn⟩ := List.mem_map.mp hvalue
    exact (h.rows hrow).tidy hcolumn

/-- The text of a selection gives the columns and the rows, which have a value for each. -/
theorem exists_text_select : ∃ rows : List (List String),
    (t.select f).rows = rows.map (·.map some) ∧
      (∀ cells ∈ rows, cells.length = t.columns.length) ∧
      (pieces '\n' (t.select f).text).map (pieces '\t') = t.columns :: rows := by
  obtain ⟨rows, hrows, hcells⟩ := h.exists_rows_select f
  refine ⟨rows, hrows, fun cells hmem => (hcells cells hmem).1, Answer.pieces_text hrows ?_⟩
  refine List.forall_mem_cons.mpr ⟨⟨h.columns_ne_nil, h.tidy_columns⟩, fun cells hmem => ?_⟩
  obtain ⟨hlen, htidy⟩ := hcells cells hmem
  refine ⟨fun hnil => h.columns_ne_nil ?_, htidy⟩
  rw [← List.length_eq_zero_iff, ← hlen, hnil, List.length_nil]

end Table.Orderly

namespace Database

theorem rows_of_execute_select {db db' : Database} {text name : String} {f : Filter}
    {outcome : Outcome} (hread : Statement.ofText text = .ok (.select name f))
    (h : db.execute text = (.ok outcome, db')) :
    ∃ t, db.table? name = some t ∧ outcome = .rows (t.select f) := by
  simp only [execute, hread, apply, select] at h
  split at h
  · cases h
  · next t ht =>
    cases h
    exact ⟨t, ht, rfl⟩

/-- In every database that texts lead to, the columns of every table and all values in its rows
are tidy. A selection that succeeds answers a text whose lines, cut at the tabs, are the
columns of the table and then the rows in their order, each a value for every column. -/
theorem text_select_after (settings : Settings) (texts : List String) :
    let db := (empty settings).after texts
    (∀ t ∈ db.tables, (∀ column ∈ t.columns, Tidy column) ∧
      ∀ key row column value, t.get? key = some row → row.get? column = some value →
        Tidy value) ∧
    ∀ text name f outcome db', Statement.ofText text = .ok (.select name f) →
      db.execute text = (.ok outcome, db') →
        ∃ t rows, db.table? name = some t ∧ outcome = .rows (t.select f) ∧
          (t.select f).rows = rows.map (·.map some) ∧
          (∀ cells ∈ rows, cells.length = t.columns.length) ∧
          (pieces '\n' outcome.text).map (pieces '\t') = t.columns :: rows := by
  intro db
  have horderly : ∀ t ∈ db.tables, t.Orderly := orderly_after settings texts
  refine ⟨fun t ht => ⟨(horderly t ht).tidy_columns, ?_⟩, ?_⟩
  · intro key row column value hrow hvalue
    exact ((horderly t ht).rows hrow).tidy hvalue
  · intro text name f outcome db' hread hexecute
    obtain ⟨t, ht, rfl⟩ := rows_of_execute_select hread hexecute
    obtain ⟨rows, hrows, hlen, htext⟩ :=
      (horderly t (List.mem_of_find?_eq_some ht)).exists_text_select f
    exact ⟨t, rows, ht, rfl, hrows, hlen, htext⟩

/-- Blanks inside a value have become single spaces, and `NULL` is shown only if it is a value. -/
theorem text_select_after_spaced :
    let texts := ["CREATE TABLE pens (id, colour name, note)",
      "INSERT INTO pens VALUES (7,\tdark\n red, NULL)"]
    ∃ t rows, ((empty .standard).after texts).table? "pens" = some t ∧
      (t.select []).rows = rows.map (·.map some) ∧
      (pieces '\n' "id\tcolour name\tnote\n7\tdark red\tNULL").map (pieces '\t') =
        t.columns :: rows := by
  intro texts
  let answer : Answer :=
    ⟨["id", "colour name", "note"], [[some "7", some "dark red", some "NULL"]]⟩
  have hread : Statement.ofText "SELECT * FROM pens" = .ok (.select "pens" []) := by
    decide +kernel
  have hexecute : (((empty .standard).after texts).execute "SELECT * FROM pens").1 =
      .ok (.rows answer) := by decide +kernel
  have hshown : (Outcome.rows answer).text = "id\tcolour name\tnote\n7\tdark red\tNULL" := by
    decide +kernel
  obtain ⟨t, rows, ht, -, hrows, -, htext⟩ := (text_select_after .standard texts).2 _ _ _ _ _
    hread (Prod.ext hexecute rfl)
  rw [hshown] at htext
  exact ⟨t, rows, ht, hrows, htext⟩

end Database

end TableEngine
