import TableEngine.Proofs.Engine.Reached
import Mathlib.Data.List.NodupEquivFin

/-!
# The key of a row

A row is stored under one of the values it is made of : the one at the first position of the
key column (`Database.stored_under_key_after`), as long as no statement updates rows. If the
table declares its key column once, that is the row's own value in the column.

A table may declare a column twice, and a row keeps the last value of a column. Then
the key and the row's value in the key column come from different positions, and
they need not be equal (`Database.exists_row_under_other_key`).
-/

namespace TableEngine.Database

variable {settings : Settings} {columns : List String}

/-- The column that names the key : the configured one if it is among the columns, and the
first column otherwise. -/
def keyColumn (settings : Settings) (columns : List String) : String :=
  if settings.keyColumn ∈ columns then settings.keyColumn else columns.headD ""

theorem getElem?_keyIndex (settings : Settings) (hne : columns ≠ []) :
    columns[keyIndex settings columns]? = some (keyColumn settings columns) := by
  unfold keyIndex keyColumn
  cases hi : columns.findIdx? fun column => column == settings.keyColumn with
  | none =>
    have hnot : settings.keyColumn ∉ columns := fun hmem => by
      simpa using List.findIdx?_eq_none_iff.mp hi settings.keyColumn hmem
    obtain ⟨first, rest, rfl⟩ := List.exists_cons_of_ne_nil hne
    rw [if_neg hnot]
    rfl
  | some i =>
    obtain ⟨hlt, hcolumn, -⟩ := List.findIdx?_eq_some_iff_getElem.mp hi
    have hcolumn : columns[i] = settings.keyColumn := by simpa using hcolumn
    rw [if_pos (hcolumn ▸ List.getElem_mem hlt), Option.getD_some,
      List.getElem?_eq_getElem hlt, hcolumn]

/-- A column that is declared once stands at one position. -/
theorem index_eq_of_count_eq_one {column : String} {i j : Nat} (h : columns.count column = 1)
    (hi : columns[i]? = some column) (hj : columns[j]? = some column) : i = j := by
  obtain ⟨hilt, hi⟩ := List.getElem?_eq_some_iff.mp hi
  obtain ⟨hjlt, hj⟩ := List.getElem?_eq_some_iff.mp hj
  have hle : ∀ {m n : Fin columns.length}, columns.get m = column → columns.get n = column →
      ¬m < n := by
    intro m n hm hn hlt
    have hdup := List.duplicate_iff_exists_distinct_get.mpr ⟨m, n, hlt, hm.symm, hn.symm⟩
    have htwo := List.duplicate_iff_two_le_count.mp hdup
    omega
  rcases Nat.lt_trichotomy i j with hlt | heq | hlt
  · exact absurd hlt (hle (m := ⟨i, hilt⟩) (n := ⟨j, hjlt⟩) hi hj)
  · exact heq
  · exact absurd hlt (hle (m := ⟨j, hjlt⟩) (n := ⟨i, hilt⟩) hj hi)

/-- The row is made of a value for each column, and the key is the value at the first position
of the key column. -/
def Keyed (settings : Settings) (columns : List String) (key : String) (row : Row) : Prop :=
  ∃ values : List String, values.length = columns.length ∧
    row = .ofPairs (columns.zip values) ∧ values[keyIndex settings columns]? = some key

/-- A row is stored under its own value in the key column if that is declared once. -/
theorem Keyed.get?_keyColumn {key : String} {row : Row} (h : Keyed settings columns key row)
    (hne : columns ≠ []) (hcount : columns.count (keyColumn settings columns) = 1) :
    row.get? (keyColumn settings columns) = some key := by
  obtain ⟨values, hlen, rfl, hkey⟩ := h
  have hindex := getElem?_keyIndex settings hne
  have hcontains := Row.contains_ofPairs_zip hlen (List.mem_of_getElem? hindex)
  obtain ⟨value, hvalue⟩ := Option.isSome_iff_exists.mp hcontains
  obtain ⟨i, hi, hvi⟩ := Row.exists_index_of_get? hvalue
  obtain rfl := index_eq_of_count_eq_one hcount hi hindex
  rw [hvalue, ← hvi, hkey]

/-- With as many values as columns, one of the values is the key. -/
theorem getElem?_values_keyIndex {values : List String} (hlen : values.length = columns.length)
    (hne : columns ≠ []) :
    values[keyIndex settings columns]? = some (values.getD (keyIndex settings columns) "") := by
  have hlt : keyIndex settings columns < values.length := by
    rw [hlen]
    exact (List.getElem?_eq_some_iff.mp (getElem?_keyIndex settings hne)).1
  rw [List.getD_eq_getElem _ _ hlt, List.getElem?_eq_getElem hlt]

theorem keyed_getD {values : List String} (hlen : values.length = columns.length)
    (hne : columns ≠ []) :
    Keyed settings columns (values.getD (keyIndex settings columns) "")
      (.ofPairs (columns.zip values)) :=
  ⟨values, hlen, rfl, getElem?_values_keyIndex hlen hne⟩

/-- The statement changes no row in place. -/
def NoUpdate (st : Statement) : Prop := ∀ table column value f, st ≠ .update table column value f

/-- Every row of the table is keyed by one of the values it is made of. -/
def KeyedRows (settings : Settings) (t : Table) : Prop :=
  ∀ key row, t.get? key = some row → Keyed settings t.columns key row

theorem keyedRows_of_alters {st : Statement} {t t' : Table} {outcome : Outcome} (h : t.Orderly)
    (hst : NoUpdate st) (ha : Alters settings st t outcome t') (hkeyed : KeyedRows settings t) :
    KeyedRows settings t' := by
  intro key row hrow
  rw [ha.sameScheme.columns_eq]
  cases ha with
  | insert hlen ht' =>
    rw [Table.get?_insert h.sound ht'] at hrow
    split at hrow
    · next hkey =>
      cases hrow
      exact hkey ▸ keyed_getD hlen h.columns_ne_nil
    · exact hkeyed key row hrow
  | update => exact absurd rfl (hst _ _ _ _)
  | delete =>
    rw [Table.get?_delete h.sound, Option.filter_eq_some_iff] at hrow
    exact hkeyed key row hrow.1

theorem kept_keyedRows (settings : Settings) :
    Kept settings (fun st => st.Worded ∧ NoUpdate st)
      fun t => t.Orderly ∧ KeyedRows settings t where
  empty {name columns} hst := by
    refine ⟨(kept_orderly settings).empty hst.1, fun key row hrow => ?_⟩
    rw [Table.get?_empty] at hrow
    cases hrow
  alters hst ha h := ⟨h.1.alters hst.1 ha, keyedRows_of_alters h.1 hst.2 ha h.2⟩

/-- Under texts that update nothing, every row of every table is made of a value for each
column, and is stored under the first of those that the key column has. If the table
declares the key column once, that is the row's own value in it. -/
theorem stored_under_key_after (settings : Settings) {texts : List String}
    (h : ∀ text ∈ texts, ∀ st, Statement.ofText text = .ok st → NoUpdate st) :
    ∀ t ∈ ((empty settings).after texts).tables, ∀ key row, t.get? key = some row →
      Keyed settings t.columns key row ∧
        (t.columns.count (keyColumn settings t.columns) = 1 →
          row.get? (keyColumn settings t.columns) = some key) := by
  intro t ht key row hrow
  have hallowed : ∀ text ∈ texts, ∀ st, Statement.ofText text = .ok st → st.Worded ∧ NoUpdate st :=
    fun text htext st hst => ⟨Statement.worded_of_ofText hst, h text htext st hst⟩
  have hempty : ∀ t ∈ (empty settings).tables, t.Orderly ∧ KeyedRows settings t := by
    simp [empty]
  obtain ⟨horderly, hrows⟩ := (kept_keyedRows settings).after texts rfl hallowed hempty t ht
  have hkeyed := hrows key row hrow
  exact ⟨hkeyed, hkeyed.get?_keyColumn horderly.columns_ne_nil⟩

/-! ## Two tables -/

theorem noUpdate_of_map_eq {texts : List String} {sts : List Statement}
    (hread : texts.map Statement.ofText = sts.map .ok) (hsts : ∀ st ∈ sts, NoUpdate st) :
    ∀ text ∈ texts, ∀ st, Statement.ofText text = .ok st → NoUpdate st := by
  intro text htext st hst
  have hmem : Statement.ofText text ∈ sts.map .ok := hread ▸ List.mem_map_of_mem htext
  obtain ⟨st', hst', heq⟩ := List.mem_map.mp hmem
  rw [hst] at heq
  exact Except.ok.inj heq ▸ hsts st' hst'

/-- The second of two rows with one key takes the place of the first. -/
theorem stored_under_key_after_overwrite :
    let settings : Settings := ⟨.probing .double, "id"⟩
    let texts := ["CREATE TABLE pens (name, id)", "INSERT INTO pens VALUES (blue, 7)",
      "INSERT INTO pens VALUES (dark red, 7)", "DELETE FROM pens WHERE name = blue"]
    (∀ text ∈ texts, ∀ st, Statement.ofText text = .ok st → NoUpdate st) ∧
      ∃ t ∈ ((empty settings).after texts).tables, ∃ row, t.get? "7" = some row ∧
        row.get? "name" = some "dark red" ∧ row.get? "id" = some "7" := by
  intro settings texts
  have hread : texts.map Statement.ofText = [.create "pens" ["name", "id"],
      .insert "pens" ["blue", "7"], .insert "pens" ["dark red", "7"],
      .delete "pens" [.test ⟨"name", .equal, some "blue"⟩]].map .ok := by decide +kernel
  have h := noUpdate_of_map_eq hread (by simp [NoUpdate])
  have hfound : (((empty settings).after texts).table? "pens").any (fun t =>
      t.columns == ["name", "id"] && (t.get? "7").any (·.get? "name" == some "dark red")) = true := by
    decide +kernel
  simp only [Option.any_eq_true, Bool.and_eq_true, beq_iff_eq] at hfound
  obtain ⟨t, ht, hcolumns, row, hrow, hname⟩ := hfound
  have ht := List.mem_of_find?_eq_some ht
  have hkey := (stored_under_key_after settings h t ht "7" row hrow).2
  rw [hcolumns] at hkey
  exact ⟨h, t, ht, row, hrow, hname, hkey (by decide)⟩

/-- A table that declares its key column twice can hold a row under a key that is not the
row's value in the column. -/
theorem exists_row_under_other_key : ¬∀ (settings : Settings) (texts : List String),
    (∀ text ∈ texts, ∀ st, Statement.ofText text = .ok st → NoUpdate st) →
      ∀ t ∈ ((empty settings).after texts).tables, ∀ key row, t.get? key = some row →
        row.get? (keyColumn settings t.columns) = some key := by
  intro hall
  let texts := ["CREATE TABLE t (id, id)", "INSERT INTO t VALUES (1, 2)"]
  have hread : texts.map Statement.ofText =
      [.create "t" ["id", "id"], .insert "t" ["1", "2"]].map .ok := by decide +kernel
  have hfound : (((empty .standard).after texts).table? "t").any (fun t =>
      t.columns == ["id", "id"] && (t.get? "1").any (·.get? "id" == some "2")) = true := by
    decide +kernel
  simp only [Option.any_eq_true, Bool.and_eq_true, beq_iff_eq] at hfound
  obtain ⟨t, ht, hcolumns, row, hrow, hvalue⟩ := hfound
  have hkey := hall .standard texts (noUpdate_of_map_eq hread (by simp [NoUpdate])) t
    (List.mem_of_find?_eq_some ht) "1" row hrow
  rw [hcolumns] at hkey
  exact absurd (hvalue.symm.trans hkey) (by decide)

end TableEngine.Database
