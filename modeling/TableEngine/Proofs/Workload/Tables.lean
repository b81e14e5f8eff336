import TableEngine.Proofs.Engine.Locality
import TableEngine.Proofs.Table.Rows
import TableEngine.Proofs.Workload.Statements

/-!
# The tables of the workload

The statements that create the three tables succeed up to the first table that is there
(`executeAll_create`). Once the three are created, a text that suits succeeds and keeps them as
they were made : behind the tables that were there, which it does not touch, and with their columns
(`Filled.execute`). So does a list of such texts, whatever their number (`Filled.executeAll`).
-/

namespace TableEngine.Workload

variable {old db : Database} {name : String} {columns : List String} {t t' : Table}

/-! ## Setting up the tables -/

/-- The database with a new table for each schema. -/
def withTables (db : Database) (schemas : List (String × List String)) : Database :=
  { db with tables := db.tables ++ schemas.map fun schema =>
      .empty schema.1 schema.2 db.settings.strategy }

theorem withTables_nil (db : Database) : withTables db [] = db := by
  simp [withTables]

theorem withTables_cons (db : Database) (schema : String × List String)
    (schemas : List (String × List String)) :
    withTables db (schema :: schemas) = withTables (withTables db [schema]) schemas := by
  simp [withTables]

theorem table?_withTables_of_ne (db : Database) {schema : String × List String}
    (hne : name ≠ schema.1) : (withTables db [schema]).table? name = db.table? name := by
  have hnone : (Table.empty schema.1 schema.2 db.settings.strategy).name ≠ name := hne.symm
  simp [withTables, Database.table?, List.find?_append, hnone]

/-- Tables are created up to the first that is there. -/
theorem executeAll_create : ∀ {texts : List String} {schemas : List (String × List String)}
    (db : Database), texts.map Statement.ofText = schemas.map (fun s => .ok (.create s.1 s.2)) →
    (schemas.map Prod.fst).Nodup →
      ((∀ s ∈ schemas, db.table? s.1 = none) ∧
        db.executeAll texts = (.ok (), withTables db schemas)) ∨
      ∃ before s after, schemas = before ++ s :: after ∧ (∀ u ∈ before, db.table? u.1 = none) ∧
        (db.table? s.1).isSome ∧
        db.executeAll texts = (.error (.tableExists s.1), withTables db before)
  | [], [], db, _, _ => Or.inl ⟨nofun, by rw [withTables_nil]; rfl⟩
  | text :: texts, s :: schemas, db, hread, hnodup => by
    obtain ⟨htext, hread⟩ := List.cons_eq_cons.mp hread
    obtain ⟨hnotin, hnodup⟩ := List.nodup_cons.mp hnodup
    have hexecute : db.execute text = db.create s.1 s.2 := by
      rw [Database.execute, htext]
      rfl
    rw [Database.executeAll, hexecute, Database.create]
    cases htable : db.table? s.1 with
    | some t =>
      exact Or.inr ⟨[], s, schemas, rfl, nofun, by simp [htable], by simp [withTables_nil]⟩
    | none =>
      -- the table that is created is none of those still to come
      have hsame : ∀ u ∈ schemas, (withTables db [s]).table? u.1 = db.table? u.1 := fun u hu =>
        table?_withTables_of_ne db fun heq => hnotin (heq ▸ List.mem_map_of_mem hu)
      rcases executeAll_create (withTables db [s]) hread hnodup with ⟨hnew, h⟩ |
        ⟨before, u, after, rfl, hnew, hu, h⟩
      · refine Or.inl ⟨List.forall_mem_cons.mpr ⟨htable, fun u hu => ?_⟩, ?_⟩
        · rw [← hsame u hu, hnew u hu]
        · rw [withTables_cons]
          exact h
      · have hbefore : ∀ v ∈ before, db.table? v.1 = none := fun v hv => by
          rw [← hsame v (List.mem_append_left _ hv), hnew v hv]
        refine Or.inr ⟨s :: before, u, after, rfl, List.forall_mem_cons.mpr ⟨htable, hbefore⟩,
          ?_, ?_⟩
        · rwa [← hsame u (by simp)]
        · rw [withTables_cons]
          exact h

theorem map_ofText_creations :
    creations.map Statement.ofText = schemas.map fun s => .ok (.create s.1 s.2) := by
  decide +kernel

/-! ## Tables that are set up -/

/-- Behind the tables of `old`, which are as they were, stand the tables of the schemas. -/
structure Filled (old db : Database) : Prop where
  settings_eq : db.settings = old.settings
  tables : ∃ added, db.tables = old.tables ++ added ∧
    added.map (fun t => (t.name, t.columns)) = schemas

theorem filled_withTables (db : Database) : Filled db (withTables db schemas) where
  settings_eq := rfl
  tables := ⟨_, rfl, rfl⟩

/-- No two tables of the schemas have one name. -/
theorem columns_eq_of_mem {columns' : List String} (h : (name, columns) ∈ schemas)
    (h' : (name, columns') ∈ schemas) : columns' = columns := by
  have hall : ∀ s ∈ schemas, ∀ s' ∈ schemas, s.1 = s'.1 → s'.2 = s.2 := by decide
  exact hall _ h _ h' rfl

namespace Filled

variable (h : Filled old db) (hnew : ∀ s ∈ schemas, old.table? s.1 = none)
include h hnew

theorem exists_table? (hschema : (name, columns) ∈ schemas) :
    ∃ t, db.table? name = some t ∧ t.columns = columns := by
  obtain ⟨added, htables, hadded⟩ := h.tables
  have hfind : db.table? name = added.find? fun t => t.name == name := by
    have hold : old.tables.find? (fun t => t.name == name) = none := hnew _ hschema
    rw [Database.table?, htables, List.find?_append, hold, Option.none_or]
  obtain ⟨u, hu, hname⟩ := List.mem_map.mp (hadded ▸ hschema)
  have hsome : (added.find? fun t => t.name == name).isSome :=
    List.find?_isSome.mpr ⟨u, hu, by simpa using congrArg Prod.fst hname⟩
  obtain ⟨t, ht⟩ := Option.isSome_iff_exists.mp hsome
  have hmem : (t.name, t.columns) ∈ schemas :=
    hadded ▸ List.mem_map_of_mem (List.mem_of_find?_eq_some ht)
  rw [← hfind] at ht
  obtain rfl := Database.name_of_table? ht
  exact ⟨t, ht, columns_eq_of_mem hschema hmem⟩

/-- A table of the schemas can be replaced by one of its scheme. -/
theorem replace (hschema : (t.name, t.columns) ∈ schemas) (ht : t'.SameScheme t) :
    Filled old (db.replace t') where
  settings_eq := h.settings_eq
  tables := by
    obtain ⟨added, htables, hadded⟩ := h.tables
    refine ⟨added.map fun u => if u.name = t'.name then t' else u, ?_, ?_⟩
    · have hkept : ∀ u ∈ old.tables, (if u.name = t'.name then t' else u) = u := fun u hu => by
        have hne := List.find?_eq_none.mp (hnew _ hschema) u hu
        rw [if_neg (by simpa [ht.name_eq] using hne)]
      rw [Database.replace, htables, List.map_append, List.map_congr_left hkept, List.map_id']
    · rw [← hadded, List.map_map]
      refine List.map_congr_left fun u hu => ?_
      have hmem : (u.name, u.columns) ∈ schemas := hadded ▸ List.mem_map_of_mem hu
      simp only [Function.comp]
      split
      · next hname =>
        rw [hname, ht.name_eq] at hmem
        rw [hname, ht.columns_eq, columns_eq_of_mem hmem hschema]
      · rfl

/-- A statement that fits succeeds. -/
theorem apply {st : Statement} (hst : Fits st) :
    ∃ outcome db', db.apply st = (.ok outcome, db') ∧ Filled old db' := by
  cases hst with
  | @insert name columns values hschema hlen =>
    obtain ⟨t, ht, rfl⟩ := h.exists_table? hnew hschema
    obtain rfl := Database.name_of_table? ht
    obtain ⟨t', ht'⟩ :=
      t.exists_insert (values.getD (Database.keyIndex db.settings t.columns) "") hlen
    have happly : db.apply (.insert t.name values) = (.ok (.inserted t.name), db.replace t') := by
      simp only [Database.apply, Database.insert, ht, hlen, ne_eq, not_true_eq_false, if_false,
        Table.put_eq, ht']
    exact ⟨_, _, happly, h.replace hnew hschema (Table.sameScheme_insert ht')⟩
  | @select name columns f hschema =>
    obtain ⟨t, ht, rfl⟩ := h.exists_table? hnew hschema
    have happly : db.apply (.select name f) = (.ok (.rows (t.select f)), db) := by
      simp only [Database.apply, Database.select, ht]
    exact ⟨_, _, happly, h⟩
  | @update name column value columns f hschema hcolumn =>
    obtain ⟨t, ht, rfl⟩ := h.exists_table? hnew hschema
    obtain rfl := Database.name_of_table? ht
    have hdeclared : t.hasColumn column = true := List.contains_iff_mem.mpr hcolumn
    have happly : db.apply (.update t.name column value f) =
        (.ok (.updated t.name (t.update column value f).1),
          db.replace (t.update column value f).2) := by
      simp only [Database.apply, Database.update, ht, hdeclared, Bool.not_true, Bool.false_eq_true,
        if_false]
    exact ⟨_, _, happly, h.replace hnew hschema (Table.sameScheme_setEach _ _ _ t)⟩
  | @delete name columns f hschema =>
    obtain ⟨t, ht, rfl⟩ := h.exists_table? hnew hschema
    obtain rfl := Database.name_of_table? ht
    have happly : db.apply (.delete t.name f) =
        (.ok (.deleted t.name (t.delete f).1), db.replace (t.delete f).2) := by
      simp only [Database.apply, Database.delete, ht]
    exact ⟨_, _, happly, h.replace hnew hschema (Table.sameScheme_removeEach _ t)⟩

theorem execute {text : String} (htext : Suits text) :
    ∃ outcome db', db.execute text = (.ok outcome, db') ∧ Filled old db' := by
  obtain ⟨st, hread, hst⟩ := htext
  rw [Database.execute, hread]
  exact h.apply hnew hst

end Filled

theorem Filled.executeAll (hnew : ∀ s ∈ schemas, old.table? s.1 = none) :
    ∀ {db : Database} {texts : List String}, Filled old db → (∀ text ∈ texts, Suits text) →
      ∃ db', db.executeAll texts = (.ok (), db') ∧ Filled old db'
  | db, [], h, _ => ⟨db, rfl, h⟩
  | db, text :: texts, h, hsuits => by
    obtain ⟨htext, htexts⟩ := List.forall_mem_cons.mp hsuits
    obtain ⟨outcome, db', hexecute, h'⟩ := h.execute hnew htext
    rw [Database.executeAll, hexecute]
    exact Filled.executeAll hnew h' htexts

end TableEngine.Workload
