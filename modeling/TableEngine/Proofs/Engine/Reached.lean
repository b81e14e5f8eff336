import TableEngine.Proofs.Engine.Locality
import TableEngine.Proofs.Statement.Derivation
import TableEngine.Proofs.Table.Rows

/-!
# What holds of every table that texts lead to

A property of tables holds of every table of every database that texts lead to if a new
table has it and a table keeps it when a statement alters it (`Database.Kept.after`). The
statements may be limited to some of a kind.

Every table is orderly (`Database.orderly_after`) : its name is a word, it has columns, which
are tidy, and every row has a tidy value for each of them.
-/

namespace TableEngine

open Text

namespace Database

variable {settings : Settings} {db : Database} {t t' : Table} {st : Statement}
  {outcome : Outcome}

/-! ## Tables one statement later -/

theorem settings_apply (db : Database) (st : Statement) :
    (db.apply st).2.settings = db.settings := by
  rcases db.apply_inversion st with ⟨_, h⟩ | ⟨_, -, -, h⟩ | ⟨_, _, -, -, h⟩ | ⟨_, _, _, -, -, h⟩
  · rw [h]
  · rw [h]
  · rw [h]
  · rw [h, replace]

theorem settings_after : ∀ (texts : List String) (db : Database),
    (db.after texts).settings = db.settings
  | [], _ => rfl
  | text :: texts, db => by
    refine (settings_after texts _).trans ?_
    unfold execute
    split
    · rfl
    · exact settings_apply db _

theorem mem_tables_replace (h : t' ∈ (db.replace t).tables) : t' ∈ db.tables ∨ t' = t := by
  obtain ⟨u, hu, rfl⟩ := List.mem_map.mp h
  split
  · exact Or.inr rfl
  · exact Or.inl hu

/-- A table was there before, or is new, or has been altered. -/
theorem mem_tables_apply (h : t' ∈ (db.apply st).2.tables) :
    t' ∈ db.tables ∨
    (∃ name columns, st = .create name columns ∧ t' = .empty name columns db.settings.strategy) ∨
    ∃ t ∈ db.tables, ∃ outcome, Alters db.settings st t outcome t' := by
  rcases db.apply_inversion st with ⟨fault, happly⟩ | ⟨columns, hcreate, -, happly⟩ |
    ⟨f, t, -, -, happly⟩ | ⟨t, outcome, u, ht, halters, happly⟩
  · rw [happly] at h
    exact Or.inl h
  · rw [happly, List.mem_append, List.mem_singleton] at h
    exact h.imp_right fun h => Or.inl ⟨_, columns, hcreate, h⟩
  · rw [happly] at h
    exact Or.inl h
  · rw [happly] at h
    rcases mem_tables_replace h with h | rfl
    · exact Or.inl h
    · exact Or.inr (Or.inr ⟨t, List.mem_of_find?_eq_some ht, outcome, halters⟩)

/-! ## Every table -/

/-- Under the settings a new table has the property, and no statement that is allowed takes
it away. -/
structure Kept (settings : Settings) (Allowed : Statement → Prop) (P : Table → Prop) : Prop where
  empty : ∀ {name columns}, Allowed (.create name columns) →
    P (.empty name columns settings.strategy)
  alters : ∀ {st t outcome t'}, Allowed st → Alters settings st t outcome t' → P t → P t'

namespace Kept

variable {Allowed : Statement → Prop} {P : Table → Prop} (h : Kept settings Allowed P)
include h

theorem apply (hsettings : db.settings = settings) (hst : Allowed st)
    (hdb : ∀ t ∈ db.tables, P t) : ∀ t ∈ (db.apply st).2.tables, P t := by
  intro t' ht'
  rcases mem_tables_apply ht' with ht' | ⟨name, columns, rfl, rfl⟩ | ⟨t, ht, outcome, halters⟩
  · exact hdb t' ht'
  · rw [hsettings]
    exact h.empty hst
  · exact h.alters hst (hsettings ▸ halters) (hdb t ht)

/-- A property that is kept holds of every table that texts lead to. -/
theorem after : ∀ {db : Database} (texts : List String), db.settings = settings →
    (∀ text ∈ texts, ∀ st, Statement.ofText text = .ok st → Allowed st) →
    (∀ t ∈ db.tables, P t) → ∀ t ∈ (db.after texts).tables, P t
  | _, [], _, _, hdb => hdb
  | db, text :: texts, hsettings, htexts, hdb => by
    obtain ⟨htext, htexts⟩ := List.forall_mem_cons.mp htexts
    have hstep : (db.execute text).2.settings = settings ∧
        ∀ t ∈ (db.execute text).2.tables, P t := by
      unfold execute
      split
      · exact ⟨hsettings, hdb⟩
      · next st hst =>
        exact ⟨(settings_apply db st).trans hsettings, h.apply hsettings (htext st hst) hdb⟩
    exact after texts hstep.1 htexts hstep.2

end Kept

end Database

/-! ## Orderly tables -/

/-- A value for each of the columns, and only tidy values. -/
structure Row.Orderly (columns : List String) (row : Row) : Prop where
  contains : ∀ column ∈ columns, row.contains column = true
  tidy : ∀ {column value}, row.get? column = some value → Tidy value

/-- A table with a word for its name and some columns, all of them tidy, and orderly rows. -/
structure Table.Orderly (t : Table) : Prop where
  sound : t.rows.Sound
  isWord_name : IsWord t.name
  columns_ne_nil : t.columns ≠ []
  tidy_columns : ∀ column ∈ t.columns, Tidy column
  rows : ∀ {key row}, t.get? key = some row → row.Orderly t.columns

theorem Row.orderly_ofPairs {columns values : List String} (hlen : values.length = columns.length)
    (hvalues : ∀ value ∈ values, Tidy value) :
    (Row.ofPairs (columns.zip values)).Orderly columns where
  contains _ hc := contains_ofPairs_zip hlen hc
  tidy h := by
    obtain ⟨i, -, hi⟩ := exists_index_of_get? h
    exact hvalues _ (List.mem_of_getElem? hi)

theorem Row.Orderly.set {columns : List String} {row : Row} (h : row.Orderly columns)
    (column : String) {value : String} (hvalue : Tidy value) :
    (row.set column value).Orderly columns where
  contains c hc := by
    rw [Row.contains, get?_set]
    split
    · rfl
    · exact h.contains c hc
  tidy {c v} hv := by
    rw [get?_set] at hv
    split at hv
    · exact Option.some.inj hv ▸ hvalue
    · exact h.tidy hv

namespace Table.Orderly

variable {t t' : Table}

theorem of_sameScheme (h : t.Orderly) (hscheme : t'.SameScheme t) (hsound : t'.rows.Sound)
    (hrows : ∀ {key row}, t'.get? key = some row → row.Orderly t.columns) : t'.Orderly where
  sound := hsound
  isWord_name := hscheme.name_eq ▸ h.isWord_name
  columns_ne_nil := hscheme.columns_eq ▸ h.columns_ne_nil
  tidy_columns := hscheme.columns_eq ▸ h.tidy_columns
  rows hrow := hscheme.columns_eq ▸ hrows hrow

/-- A statement that is worded alters an orderly table into an orderly one. -/
theorem alters {settings : Settings} {st : Statement} {outcome : Outcome} (h : t.Orderly)
    (hst : st.Worded) (ha : Database.Alters settings st t outcome t') : t'.Orderly := by
  refine h.of_sameScheme ha.sameScheme ?_ ?_
  · cases ha with
    | insert _ ht' => exact sound_insert h.sound ht'
    | update => exact sound_update h.sound _ _ _
    | delete => exact sound_delete h.sound _
  intro key row hrow
  cases ha with
  | insert hlen ht' =>
    rw [get?_insert h.sound ht'] at hrow
    split at hrow
    · exact Option.some.inj hrow ▸ Row.orderly_ofPairs hlen hst.2.2
    · exact h.rows hrow
  | update =>
    rw [get?_update h.sound, Option.map_eq_some_iff] at hrow
    obtain ⟨row, hold, rfl⟩ := hrow
    split
    · exact (h.rows hold).set _ hst.2.2.tidy
    · exact h.rows hold
  | delete =>
    rw [get?_delete h.sound, Option.filter_eq_some_iff] at hrow
    exact h.rows hrow.1

end Table.Orderly

namespace Database

theorem kept_orderly (settings : Settings) :
    Kept settings Statement.Worded Table.Orderly where
  empty {name columns} hst := {
    sound := Store.sound_empty settings.strategy
    isWord_name := hst.1
    columns_ne_nil := hst.2.1
    tidy_columns := hst.2.2
    rows := by
      intro key row hrow
      rw [Table.get?_empty] at hrow
      cases hrow }
  alters hst ha h := h.alters hst ha

/-- Every table that texts lead to is orderly. -/
theorem orderly_after (settings : Settings) (texts : List String) :
    ∀ t ∈ ((empty settings).after texts).tables, t.Orderly :=
  (kept_orderly settings).after texts rfl (fun _ _ _ h => Statement.worded_of_ofText h) nofun

theorem orderly_execute {db : Database} (h : ∀ t ∈ db.tables, t.Orderly) (text : String) :
    ∀ t ∈ (db.execute text).2.tables, t.Orderly :=
  (kept_orderly db.settings).after [text] rfl (fun _ _ _ h => Statement.worded_of_ofText h) h

theorem orderly_executeAll : ∀ {db : Database} (texts : List String),
    (∀ t ∈ db.tables, t.Orderly) → ∀ t ∈ (db.executeAll texts).2.tables, t.Orderly
  | _, [], h => h
  | db, text :: texts, h => by
    have hstep := orderly_execute h text
    rw [executeAll]
    generalize db.execute text = step at hstep
    obtain ⟨_ | _, db⟩ := step
    · exact hstep
    · exact orderly_executeAll texts hstep

end Database

end TableEngine
