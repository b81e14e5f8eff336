import TableEngine.Proofs.Engine.Reached
import TableEngine.Proofs.Row.Comparing
import TableEngine.Proofs.Statement.Operands

/-!
# Finding a row by one of its values

A text that asks for the rows with a certain value in a column finds every row that has it
(`Database.found_after`), whatever the value looks like : a text is equal to itself
as an integer, as a decimal number and as a text (`Comparison.compare_equal_self`), so it does not
matter as which of them it counts.

Both have to be single words to be written in a text, and the column must not read as a
connective or an operator. The value may, since the word after an operator is its literal.
-/

namespace TableEngine

open Text

/-! ## One comparison -/

namespace Filter

variable {column value : String} {row : Row}

/-- The column has the value. -/
def equals (column value : String) : Filter := [.test ⟨column, .equal, some value⟩]

theorem accepts_equals (h : row.get? column = some value) :
    (equals column value).accepts row = true := by
  show Condition.holds ⟨column, .equal, some value⟩ row = true
  simp only [Condition.holds, h, Comparison.compare_equal_self]

theorem whereClause_equals (kind : StatementKind) (hj : Connective.ofWord? column = none)
    (ho : Comparison.ofSymbol? column = none) :
    Statement.whereClause kind ["WHERE", column, "=", value] = .ok (equals column value) := by
  have hscan : ofWords kind [column, "=", value] = .ok (equals column value) := by
    have hequal : Comparison.ofSymbol? "=" = some .equal := rfl
    rw [ofWords, scan_other hj ho, scan_operator hequal]
    rfl
  rw [Statement.whereClause, dropKeyword_of_spells (spells_self "WHERE")]
  · exact hscan
  · exact List.cons_ne_nil _ _

end Filter

/-! ## The texts -/

namespace Statement

theorem ofText_intercalate {ws : List String} (h : ∀ w ∈ ws, IsWord w) :
    ofText (" ".intercalate ws) = ofWords ws :=
  congrArg ofWords (words_eq_iff.mpr (spaced_intercalate h))

variable {name column value : String} (hname : IsWord name) (hcolumn : IsWord column)
  (hvalue : IsWord value) (hj : Connective.ofWord? column = none)
  (ho : Comparison.ofSymbol? column = none)
include hname hcolumn hvalue hj ho

theorem ofText_select_equals :
    ofText ("SELECT * FROM " ++ name ++ " WHERE " ++ column ++ " = " ++ value) =
      .ok (.select name (.equals column value)) := by
  have hwords : ∀ w ∈ ["SELECT", "*", "FROM", name, "WHERE", column, "=", value], IsWord w := by
    simp only [List.forall_mem_cons, hname, hcolumn, hvalue]
    decide
  have htext : "SELECT * FROM " ++ name ++ " WHERE " ++ column ++ " = " ++ value =
      " ".intercalate ["SELECT", "*", "FROM", name, "WHERE", column, "=", value] :=
    String.toList_inj.mp (by simp)
  rw [htext, ofText_intercalate hwords]
  exact ofWords_select (spells_self _) (spells_self _) (Filter.whereClause_equals .select hj ho)

theorem ofText_delete_equals :
    ofText ("DELETE FROM " ++ name ++ " WHERE " ++ column ++ " = " ++ value) =
      .ok (.delete name (.equals column value)) := by
  have hwords : ∀ w ∈ ["DELETE", "FROM", name, "WHERE", column, "=", value], IsWord w := by
    simp only [List.forall_mem_cons, hname, hcolumn, hvalue]
    decide
  have htext : "DELETE FROM " ++ name ++ " WHERE " ++ column ++ " = " ++ value =
      " ".intercalate ["DELETE", "FROM", name, "WHERE", column, "=", value] :=
    String.toList_inj.mp (by simp)
  rw [htext, ofText_intercalate hwords]
  exact ofWords_delete (spells_self _) (spells_self _) (Filter.whereClause_equals .delete hj ho)

end Statement

/-! ## The rows -/

namespace Database

/-- In every database that texts lead to, a row is found by any value it has in a declared
column, if the column and the value can be written as words of a filter. A selection by the
value lists the row, and after a deletion by the value there is no row under its key. -/
theorem found_after (settings : Settings) (texts : List String) {t : Table} {row : Row}
    {key column value : String} (ht : t ∈ ((empty settings).after texts).tables)
    (hrow : t.get? key = some row) (hcolumn : column ∈ t.columns)
    (hvalue : row.get? column = some value)
    (hblank : ∀ c ∈ column.toList ++ value.toList, isBlank c = false)
    (hj : Connective.ofWord? column = none) (ho : Comparison.ofSymbol? column = none) :
    let db := (empty settings).after texts
    (∃ answer,
      db.execute ("SELECT * FROM " ++ t.name ++ " WHERE " ++ column ++ " = " ++ value) =
        (.ok (.rows answer), db) ∧ t.project row ∈ answer.rows) ∧
    ∃ count db',
      db.execute ("DELETE FROM " ++ t.name ++ " WHERE " ++ column ++ " = " ++ value) =
        (.ok (.deleted t.name count), db') ∧
      ∃ t', db'.table? t.name = some t' ∧ t'.get? key = none := by
  intro db
  have horderly : t.Orderly := orderly_after settings texts t ht
  have hfound : db.table? t.name = some t :=
    table?_of_mem (distinctNames_after texts List.nodup_nil) ht
  have hcolumn : IsWord column := (horderly.tidy_columns column hcolumn).isWord
    fun c hc => hblank c (List.mem_append_left _ hc)
  have hword : IsWord value := ((horderly.rows hrow).tidy hvalue).isWord
    fun c hc => hblank c (List.mem_append_right _ hc)
  have haccepts : (Filter.equals column value).accepts row = true := Filter.accepts_equals hvalue
  constructor
  · have hread := Statement.ofText_select_equals horderly.isWord_name hcolumn hword hj ho
    refine ⟨t.select (.equals column value), ?_, ?_⟩
    · simp only [execute, hread, apply, select, hfound]
    · exact (Table.mem_rows_select horderly.sound).mpr ⟨key, row, hrow, haccepts, rfl⟩
  · have hread := Statement.ofText_delete_equals horderly.isWord_name hcolumn hword hj ho
    have hname : (t.delete (.equals column value)).2.name = t.name :=
      (Table.sameScheme_removeEach _ t).name_eq
    refine ⟨(t.delete (.equals column value)).1, db.replace (t.delete (.equals column value)).2,
      ?_, (t.delete (.equals column value)).2, ?_, ?_⟩
    · simp only [execute, hread, apply, delete, hfound]
    · rw [table?_replace, hfound, Option.map_some, if_pos hname.symm]
    · rw [Table.get?_delete horderly.sound, hrow, Option.filter_some, haccepts]
      rfl

/-- A row is found by a literal that looks like a connective, and under a key that is not any
of its values. -/
theorem found_after_update :
    let texts := ["CREATE TABLE t (id, n)", "INSERT INTO t VALUES (7, 007)",
      "UPDATE t SET id = and WHERE n = 7"]
    let db := (empty ⟨.probing .quadratic, "id"⟩).after texts
    ∃ t ∈ db.tables, ∃ row, t.get? "7" = some row ∧ row.get? "id" = some "and" ∧
      (∃ answer, db.execute "SELECT * FROM t WHERE id = and" = (.ok (.rows answer), db) ∧
        t.project row ∈ answer.rows) ∧
      ∃ count db', db.execute "DELETE FROM t WHERE id = and" = (.ok (.deleted "t" count), db') ∧
        ∃ t', db'.table? "t" = some t' ∧ t'.get? "7" = none := by
  intro texts db
  have hfound : (db.table? "t").any (fun t =>
      t.columns == ["id", "n"] && (t.get? "7").any (·.get? "id" == some "and")) = true := by
    decide +kernel
  simp only [Option.any_eq_true, Bool.and_eq_true, beq_iff_eq] at hfound
  obtain ⟨t, ht, hcolumns, row, hrow, hvalue⟩ := hfound
  have hmem : t ∈ db.tables := List.mem_of_find?_eq_some ht
  have hcolumn : "id" ∈ t.columns := by simp [hcolumns]
  have hblank : ∀ c ∈ "id".toList ++ "and".toList, isBlank c = false := by
    simp only [List.forall_mem_append]
    exact ⟨(show IsWord "id" by decide).2, (show IsWord "and" by decide).2⟩
  have h := found_after ⟨.probing .quadratic, "id"⟩ texts hmem hrow hcolumn hvalue hblank
    (by decide) (by decide)
  rw [name_of_table? ht] at h
  exact ⟨t, hmem, row, hrow, hvalue, h⟩

end Database

end TableEngine
