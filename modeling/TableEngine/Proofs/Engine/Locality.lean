import TableEngine.Engine.Database
import TableEngine.Proofs.Table.Rows
import TableEngine.Proofs.Table.Scheme
import Mathlib.Data.List.Forall2
import Mathlib.Data.List.Nodup

/-!
# What a statement can change

A text that fails leaves the database as it was, and one that succeeds changes at most the
table it names (`Database.execute_local`). No table is lost, and none changes its name, its
columns or its strategy; a selection changes nothing, and a creation adds one empty table
of the initial capacity.

`Database.apply_inversion` says once what a statement can do : fail and change nothing, list
rows, add a table, or put another table in the place of the one it names
(`Database.Alters`). The new table has the scheme of the old one, and the last is a change of
one table because the names of the tables are distinct, which every text keeps
(`Database.distinctNames_after`).
-/

namespace TableEngine

/-- The table that a statement names. -/
def Statement.table : Statement → String
  | .create table _ | .insert table _ | .select table _ | .update table _ _ _ | .delete table _ =>
    table

namespace Database

variable {db db' : Database} {name : String} {t t' : Table} {st : Statement} {outcome : Outcome}

theorem name_of_table? (h : db.table? name = some t) : t.name = name := by
  simpa using List.find?_some h

/-! ## What a statement can do -/

/-- In a database of the settings, the statement puts `t'` in the place of the table `t`, which
it names, and answers the outcome. -/
inductive Alters (settings : Settings) : Statement → Table → Outcome → Table → Prop
  | insert {t t' : Table} {values : List String} : values.length = t.columns.length →
    t.insert (values.getD (keyIndex settings t.columns) "") (.ofPairs (t.columns.zip values)) =
      .ok t' → Alters settings (.insert t.name values) t (.inserted t.name) t'
  | update {t : Table} {column value : String} {f : Filter} : t.hasColumn column = true →
    Alters settings (.update t.name column value f) t
      (.updated t.name (t.update column value f).1) (t.update column value f).2
  | delete {t : Table} {f : Filter} :
    Alters settings (.delete t.name f) t (.deleted t.name (t.delete f).1) (t.delete f).2

theorem Alters.sameScheme {settings : Settings} (h : Alters settings st t outcome t') :
    t'.SameScheme t := by
  cases h with
  | insert _ ht' => exact Table.sameScheme_insert ht'
  | update _ => exact Table.sameScheme_setEach _ _ _ t
  | delete => exact Table.sameScheme_removeEach _ t

/-- A statement fails and changes nothing, or adds an empty table of a new name, or lists
rows of the table it names, or puts another table in its place. -/
theorem apply_inversion (db : Database) (st : Statement) :
    (∃ fault, db.apply st = (.error fault, db)) ∨
    (∃ columns, st = .create st.table columns ∧ db.table? st.table = none ∧
      db.apply st = (.ok (.created st.table),
        { db with tables := db.tables ++ [.empty st.table columns db.settings.strategy] })) ∨
    (∃ f t, st = .select st.table f ∧ db.table? st.table = some t ∧
      db.apply st = (.ok (.rows (t.select f)), db)) ∨
    (∃ t outcome t', db.table? st.table = some t ∧ Alters db.settings st t outcome t' ∧
      db.apply st = (.ok outcome, db.replace t')) := by
  cases st with
  | create name columns =>
    simp only [apply, create, Statement.table]
    split
    · exact Or.inl ⟨_, rfl⟩
    · next hnone => exact Or.inr (Or.inl ⟨columns, rfl, hnone, rfl⟩)
  | insert name values =>
    simp only [apply, insert, Statement.table]
    split
    · exact Or.inl ⟨_, rfl⟩
    · next t ht =>
      obtain rfl := name_of_table? ht
      split
      · exact Or.inl ⟨_, rfl⟩
      · next hlength =>
        -- a row of as many values as columns is not refused
        have hlen : values.length = t.columns.length := Decidable.not_not.mp hlength
        obtain ⟨t', ht'⟩ := t.exists_insert (values.getD (keyIndex db.settings t.columns) "") hlen
        simp only [Table.put_eq, ht']
        exact Or.inr (Or.inr (Or.inr ⟨t, _, t', ht, .insert hlen ht', rfl⟩))
  | select name f =>
    simp only [apply, select, Statement.table]
    split
    · exact Or.inl ⟨_, rfl⟩
    · next t ht => exact Or.inr (Or.inr (Or.inl ⟨f, t, rfl, ht, rfl⟩))
  | update name column value f =>
    simp only [apply, update, Statement.table]
    split
    · exact Or.inl ⟨_, rfl⟩
    · next t ht =>
      obtain rfl := name_of_table? ht
      split
      · exact Or.inl ⟨_, rfl⟩
      · next hcolumn =>
        have hcolumn : t.hasColumn column = true := by simpa using hcolumn
        exact Or.inr (Or.inr (Or.inr ⟨t, _, _, ht, .update hcolumn, rfl⟩))
  | delete name f =>
    simp only [apply, delete, Statement.table]
    split
    · exact Or.inl ⟨_, rfl⟩
    · next t ht =>
      obtain rfl := name_of_table? ht
      exact Or.inr (Or.inr (Or.inr ⟨t, _, _, ht, .delete, rfl⟩))

/-- What a statement can do, as far as the schemes of the tables show it. -/
theorem apply_cases (db : Database) (st : Statement) :
    (∃ fault, db.apply st = (.error fault, db)) ∨
    (∃ columns, st = .create st.table columns ∧ db.table? st.table = none ∧
      db.apply st = (.ok (.created st.table),
        { db with tables := db.tables ++ [.empty st.table columns db.settings.strategy] })) ∨
    (∃ f outcome, st = .select st.table f ∧ db.apply st = (.ok outcome, db)) ∨
    (∃ t t' outcome, (∀ columns, st ≠ .create st.table columns) ∧ (∀ f, st ≠ .select st.table f) ∧
      db.table? st.table = some t ∧ t'.SameScheme t ∧
      db.apply st = (.ok outcome, db.replace t')) := by
  rcases db.apply_inversion st with hfault | hcreate | ⟨f, t, hselect, -, h⟩ |
    ⟨t, outcome, t', ht, halters, h⟩
  · exact Or.inl hfault
  · exact Or.inr (Or.inl hcreate)
  · exact Or.inr (Or.inr (Or.inl ⟨f, _, hselect, h⟩))
  · have hscheme := halters.sameScheme
    refine Or.inr (Or.inr (Or.inr ⟨t, t', outcome, ?_, ?_, ht, hscheme, h⟩))
    · cases halters <;> nofun
    · cases halters <;> nofun

/-! ## The names of the tables -/

/-- No two tables have one name. -/
def DistinctNames (db : Database) : Prop := (db.tables.map Table.name).Nodup

theorem eq_of_table? (hdb : db.DistinctNames) (h : db.table? name = some t) (ht' : t' ∈ db.tables)
    (hname : t'.name = name) : t' = t :=
  List.inj_on_of_nodup_map hdb ht' (List.mem_of_find?_eq_some h)
    (hname.trans (name_of_table? h).symm)

theorem table?_of_mem (hdb : db.DistinctNames) (ht : t ∈ db.tables) :
    db.table? t.name = some t := by
  have hfound : (db.table? t.name).isSome := List.find?_isSome.mpr ⟨t, ht, beq_self_eq_true _⟩
  obtain ⟨u, hu⟩ := Option.isSome_iff_exists.mp hfound
  rw [hu, eq_of_table? hdb hu ht rfl]

/-- The table that is put in is found under its name, and every other one as before. -/
theorem table?_replace (db : Database) (t' : Table) (name : String) :
    (db.replace t').table? name =
      (db.table? name).map fun t => if t.name = t'.name then t' else t := by
  have hsame : ((fun t => t.name == name) ∘ fun t => if t.name = t'.name then t' else t) =
      fun t : Table => t.name == name := by
    funext t
    simp only [Function.comp]
    split
    · next ht => rw [ht]
    · rfl
  rw [table?, replace, List.find?_map, hsame]
  rfl

theorem table?_replace_self (ht : db.table? name = some t) (hname : t'.name = t.name) :
    (db.replace t').table? name = some t' := by
  rw [table?_replace, ht, Option.map_some, if_pos hname.symm]

theorem table?_replace_of_ne (hne : name ≠ t'.name) :
    (db.replace t').table? name = db.table? name := by
  rw [table?_replace]
  cases hu : db.table? name with
  | none => rfl
  | some u => rw [Option.map_some, if_neg (name_of_table? hu ▸ hne)]

/-- To replace a table by one of the same name changes no name. -/
theorem names_replace (t : Table) :
    (db.replace t).tables.map Table.name = db.tables.map Table.name := by
  rw [replace, List.map_map]
  refine List.map_congr_left fun u _ => ?_
  simp only [Function.comp]
  split
  · next h => exact h.symm
  · rfl

theorem distinctNames_append (hdb : db.DistinctNames) (h : db.table? t.name = none) :
    ({ db with tables := db.tables ++ [t] } : Database).DistinctNames := by
  rw [DistinctNames, List.map_append, List.map_singleton, List.nodup_append]
  refine ⟨hdb, List.nodup_singleton _, ?_⟩
  rintro a ha b hb rfl
  obtain ⟨u, hu, hname⟩ := List.mem_map.mp ha
  have := List.find?_eq_none.mp h u hu
  simp [hname, List.mem_singleton.mp hb] at this

theorem distinctNames_apply (hdb : db.DistinctNames) (st : Statement) :
    (db.apply st).2.DistinctNames := by
  rcases db.apply_cases st with ⟨fault, h⟩ | ⟨columns, -, hnone, h⟩ | ⟨f, outcome, -, h⟩ |
    ⟨t, t', outcome, -, -, -, -, h⟩
  · rwa [h]
  · rw [h]
    exact distinctNames_append hdb hnone
  · rwa [h]
  · rw [h, DistinctNames, names_replace]
    exact hdb

/-- The database after a list of texts, whether they succeed or not. -/
def after (db : Database) : List String → Database
  | [] => db
  | text :: texts => after (db.execute text).2 texts

theorem distinctNames_execute (hdb : db.DistinctNames) (text : String) :
    (db.execute text).2.DistinctNames := by
  unfold execute
  split
  · exact hdb
  · exact distinctNames_apply hdb _

/-- Every database that texts lead to has tables of distinct names. -/
theorem distinctNames_after : ∀ {db : Database} (texts : List String), db.DistinctNames →
    (db.after texts).DistinctNames
  | _, [], h => h
  | _, text :: texts, h => distinctNames_after texts (distinctNames_execute h text)

/-! ## What a success leaves as it was -/

/-- The tables of `db` are still there, in the same order and each of its old scheme, with
the new ones behind them. All but the table of the name are exactly as they were, with
their rows and backing arrays. -/
structure ChangesAt (name : String) (added : List Table) (db db' : Database) : Prop where
  settings_eq : db'.settings = db.settings
  tables : ∃ kept, db'.tables = kept ++ added ∧
    List.Forall₂ (fun t t' => t'.SameScheme t ∧ (t.name ≠ name → t' = t)) db.tables kept

theorem changesAt_append (name : String) (t : Table) :
    ChangesAt name [t] db { db with tables := db.tables ++ [t] } where
  settings_eq := rfl
  tables := ⟨db.tables, rfl, List.forall₂_same.mpr fun t _ => ⟨.refl t, fun _ => rfl⟩⟩

theorem changesAt_self (name : String) : ChangesAt name [] db db where
  settings_eq := rfl
  tables := ⟨db.tables, by simp, List.forall₂_same.mpr fun t _ => ⟨.refl t, fun _ => rfl⟩⟩

/-- Among tables of distinct names a replacement changes the one it names. -/
theorem changesAt_replace (hdb : db.DistinctNames) (ht : db.table? name = some t)
    (h : t'.SameScheme t) : ChangesAt name [] db (db.replace t') where
  settings_eq := rfl
  tables := by
    have hname : t'.name = name := h.name_eq.trans (name_of_table? ht)
    refine ⟨_, (List.append_nil _).symm, ?_⟩
    rw [replace, List.forall₂_map_right_iff, List.forall₂_same]
    intro u hu
    rw [hname]
    split
    · next hun =>
      rw [eq_of_table? hdb ht hu hun]
      exact ⟨h, fun hne => absurd (name_of_table? ht) hne⟩
    · exact ⟨.refl u, fun _ => rfl⟩

/-- A new table has no rows and the initial capacity. -/
theorem empty_blank (name : String) (columns : List String) (σ : Strategy) :
    (Table.empty name columns σ).keys = [] ∧ (Table.empty name columns σ).size = 0 ∧
      (Table.empty name columns σ).capacity = initialCapacity := by
  cases σ <;> exact ⟨rfl, rfl, rfl⟩

/-- In every database that texts lead to, the tables have distinct names. A text that fails
leaves the database as it was. One that succeeds changes at most the table it names : a
creation adds that table, empty and of the initial capacity, a selection changes nothing,
and every other statement adds no table. -/
theorem execute_local (settings : Settings) (texts : List String) (text : String) :
    let db := (empty settings).after texts
    db.DistinctNames ∧
      match db.execute text with
      | (.error _, db') => db' = db
      | (.ok _, db') => ∃ st added, Statement.ofText text = .ok st ∧
          ChangesAt st.table added db db' ∧
          match st with
          | .create name columns => db.table? name = none ∧ ∃ t, added = [t] ∧ t.name = name ∧
              t.columns = columns ∧ t.rows.strategy = db.settings.strategy ∧ t.keys = [] ∧
              t.size = 0 ∧ t.capacity = 16
          | .select _ _ => db' = db
          | .insert _ _ | .update _ _ _ _ | .delete _ _ => added = [] := by
  intro db
  have hdb : db.DistinctNames := distinctNames_after texts List.nodup_nil
  refine ⟨hdb, ?_⟩
  unfold execute
  cases hst : Statement.ofText text with
  | error fault => rfl
  | ok st =>
    rcases db.apply_cases st with ⟨fault, h⟩ | ⟨columns, hcreate, hnone, h⟩ |
      ⟨f, outcome, hselect, h⟩ | ⟨t, t', outcome, hcreate, hselect, ht, hscheme, h⟩
    · simp only [h]
    · simp only [h]
      refine ⟨st, _, rfl, changesAt_append st.table _, ?_⟩
      rw [hcreate] at hnone ⊢
      exact ⟨hnone, _, rfl, rfl, rfl, Store.strategy_empty _, empty_blank _ _ _⟩
    · simp only [h]
      refine ⟨st, [], rfl, changesAt_self st.table, ?_⟩
      rw [hselect]
      exact trivial
    · simp only [h]
      refine ⟨st, [], rfl, changesAt_replace hdb ht hscheme, ?_⟩
      cases st with
      | create name columns => exact absurd rfl (hcreate columns)
      | select name f => exact absurd rfl (hselect f)
      | insert name values => rfl
      | update name column value f => rfl
      | delete name f => rfl

end Database

end TableEngine
