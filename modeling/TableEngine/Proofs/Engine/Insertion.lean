import TableEngine.Proofs.Engine.Keys

/-!
# Storing one row

An insertion stores the row of its values under one of them, the key, and touches no other row
and no other table (`Database.execute_insert_after`). It is refused for two reasons only, and
in this order : there is no table of the name, or the table has not as many columns as there
are values. A row of as many values as columns lacks none, so the table takes it
(`Table.exists_insert`).

If there was a row under the key it is replaced, and the size stays as it was
(`Table.size_insert`). The store may have grown before it knows that.
-/

namespace TableEngine.Database

variable {db : Database} {t t' : Table} {name : String} {values : List String}

/-- The key stands where the key column stands first, and without that column at the start. -/
theorem keyIndex_eq (settings : Settings) (columns : List String) : keyIndex settings columns =
    if settings.keyColumn ∈ columns then columns.idxOf settings.keyColumn else 0 := by
  unfold keyIndex
  split
  · next hmem =>
    have hlt := List.idxOf_lt_length_iff.mpr hmem
    rw [List.findIdx?_eq_some_iff_findIdx_eq.mpr ⟨hlt, rfl⟩, Option.getD_some]
  · next hmem =>
    have hnone : ∀ column ∈ columns, (column == settings.keyColumn) = false :=
      fun column hc => beq_eq_false_iff_ne.mpr fun he => hmem (he ▸ hc)
    rw [List.findIdx?_eq_none_iff.mpr hnone, Option.getD_none]

variable {text : String} (hread : Statement.ofText text = .ok (.insert name values))
include hread

theorem execute_insert (db : Database) : db.execute text = db.insert name values := by
  rw [execute, hread]
  rfl

/-- An insertion into a table that takes the row puts the table with the row in its place. -/
theorem execute_insert_of_ok (ht : db.table? name = some t)
    (hlen : values.length = t.columns.length)
    (hinsert : t.insert (values.getD (keyIndex db.settings t.columns) "")
      (.ofPairs (t.columns.zip values)) = .ok t') :
    db.execute text = (.ok (.inserted name), db.replace t') := by
  simp only [execute_insert hread, insert, ht, hlen, ne_eq, not_true_eq_false, if_false,
    Table.put_eq, hinsert]

/-- In every database that texts lead to, an insertion fails if there is no table of the name,
and otherwise if the numbers of columns and values differ. Otherwise it succeeds. The key is the
value at the first position of the key column, or at the first of all if the table does not
declare that column. Under the key there is now the row that has, of the values that stand at a
column, the last; under every other key, and in every other table, nothing has changed. The
table has one row more if there was none under the key, and as many as before if there was. -/
theorem execute_insert_after (settings : Settings) (texts : List String) :
    let db := (empty settings).after texts
    match db.table? name with
    | none => db.execute text = (.error (.noSuchTable name), db)
    | some t =>
      if values.length = t.columns.length then
        ∃ key row t' db', db.execute text = (.ok (.inserted name), db') ∧
          db'.table? name = some t' ∧
          values[if settings.keyColumn ∈ t.columns then t.columns.idxOf settings.keyColumn
            else 0]? = some key ∧
          (∀ c, row.get? c = (t.columns.zip values).reverse.lookup c) ∧
          t'.get? key = some row ∧ (∀ k, k ≠ key → t'.get? k = t.get? k) ∧
          t'.size = (if (t.get? key).isSome then t.size else t.size + 1) ∧
          t'.SameScheme t ∧ ∀ other, other ≠ name → db'.table? other = db.table? other
      else
        db.execute text = (.error (.columnCount t.columns.length values.length), db) := by
  intro db
  have hsettings : db.settings = settings := settings_after texts _
  split
  · next hnone => simp only [execute_insert hread, insert, hnone]
  · next t ht =>
    split
    · next hlen =>
      have horderly : t.Orderly := orderly_after settings texts t (List.mem_of_find?_eq_some ht)
      -- no declared column is missing, so the row cannot be refused for its shape
      obtain ⟨t', ht'⟩ := t.exists_insert (values.getD (keyIndex db.settings t.columns) "") hlen
      have hscheme := Table.sameScheme_insert ht'
      have hname : t'.name = name := hscheme.name_eq.trans (name_of_table? ht)
      have hget := Table.get?_insert horderly.sound ht'
      refine ⟨_, _, t', db.replace t', execute_insert_of_ok hread ht hlen ht',
        table?_replace_self ht hscheme.name_eq, ?_, Row.get?_ofPairs _, ?_, fun k hk => ?_,
        Table.size_insert horderly.sound ht', hscheme, fun other hother => ?_⟩
      · rw [hsettings, ← keyIndex_eq]
        exact getElem?_values_keyIndex hlen horderly.columns_ne_nil
      · rw [hget, if_pos rfl]
      · rw [hget, if_neg hk]
      · exact table?_replace_of_ne (hname ▸ hother)
    · next hlen =>
      simp only [execute_insert hread, insert, ht, ne_eq, hlen, not_false_eq_true, if_true]

omit hread

/-- The key column is declared twice. The row is stored under its first value, over the one that
was there, and keeps its last. -/
theorem execute_insert_after_repeated :
    let texts := ["CREATE TABLE pens (ink, id, id)", "INSERT INTO pens VALUES (blue, 7, 8)"]
    let db := (empty ⟨.probing .quadratic, "id"⟩).after texts
    let text := "INSERT INTO pens VALUES (dark red, 7, 9)"
    Statement.ofText text = .ok (.insert "pens" ["dark red", "7", "9"]) ∧
      ∃ t row t' db', db.table? "pens" = some t ∧
        db.execute text = (.ok (.inserted "pens"), db') ∧ db'.table? "pens" = some t' ∧
        t'.get? "7" = some row ∧ row.get? "id" = some "9" ∧ t'.size = t.size := by
  intro texts db text
  have hread : Statement.ofText text = .ok (.insert "pens" ["dark red", "7", "9"]) := by
    decide +kernel
  have hfound : (db.table? "pens").any (fun t =>
      t.columns == ["ink", "id", "id"] && (t.get? "7").isSome) = true := by
    decide +kernel
  simp only [Option.any_eq_true, Bool.and_eq_true, beq_iff_eq] at hfound
  obtain ⟨t, ht, hcolumns, hsome⟩ := hfound
  have h := execute_insert_after hread ⟨.probing .quadratic, "id"⟩ texts
  simp only [show (empty _).after texts = db from rfl, ht, hcolumns] at h
  obtain ⟨key, row, t', db', hexecute, ht', hkey, hrow, hget, -, hsize, -⟩ := h
  obtain rfl : "7" = key := Option.some.inj hkey
  exact ⟨hread, t, row, t', db', ht, hexecute, ht', hget, hrow "id", hsize.trans (if_pos hsome)⟩

end TableEngine.Database
