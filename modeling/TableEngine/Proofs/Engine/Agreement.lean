import TableEngine.Engine.Database
import TableEngine.Proofs.Table.Agreement

/-!
# The strategy of the stores shows in the order of rows only

Two databases that keep their tables by different strategies, made with the same key
column and given the same texts, answer each text alike, up to the order in which a
selection lists its rows, and hold the same tables after it (`history_agree`).

Databases agree (`Database.Agree`) if they have the same key column and agreeing tables
in the same order. A statement keeps the agreement and answers alike
(`Database.Agree.apply`), one lemma for each kind of statement.
-/

namespace TableEngine

/-- Equal results, but for the order of the rows that a selection lists. -/
def SameResult : Except Fault Outcome → Except Fault Outcome → Prop
  | .ok (.rows a), .ok (.rows b) => a.columns = b.columns ∧ a.rows.Perm b.rows
  | r, r' => r = r'

theorem SameResult.refl : ∀ r : Except Fault Outcome, SameResult r r
  | .ok (.rows _) => ⟨rfl, .refl _⟩
  | .ok (.created _) | .ok (.inserted _) | .ok (.updated _ _) | .ok (.deleted _ _) => rfl
  | .error _ => rfl

theorem SameResult.cases {r r' : Except Fault Outcome} (h : SameResult r r') : r = r' ∨
    ∃ a b, r = .ok (.rows a) ∧ r' = .ok (.rows b) ∧ a.columns = b.columns ∧
      a.rows.Perm b.rows := by
  unfold SameResult at h
  split at h
  · next a b => exact Or.inr ⟨a, b, rfl, rfl, h⟩
  · exact Or.inl h

/-- The same table, but for the order in which it lists its keys. -/
structure SameTable (t u : Table) : Prop where
  name_eq : t.name = u.name
  columns_eq : t.columns = u.columns
  get?_eq : ∀ key, t.get? key = u.get? key
  perm_keys : t.keys.Perm u.keys
  size_eq : t.size = u.size
  capacity_eq : t.capacity = u.capacity

theorem Table.Agree.same {t u : Table} (h : t.Agree u) : SameTable t u :=
  ⟨h.name_eq, h.columns_eq, h.get?_eq, h.rows.perm_keys, h.rows.size_eq, h.rows.capacity_eq⟩

namespace Database

/-- The same result, and the same tables afterwards in the order of their creation. -/
structure SameStep (a b : Step) : Prop where
  result : SameResult a.1 b.1
  tables : List.Forall₂ SameTable a.2.tables b.2.tables

/-- What each text of a list answers, and the database after it. -/
def history (db : Database) : List String → List Step
  | [] => []
  | text :: texts => db.execute text :: history (db.execute text).2 texts

/-- The same key column, and agreeing tables. -/
structure Agree (d e : Database) : Prop where
  keyColumn_eq : d.settings.keyColumn = e.settings.keyColumn
  tables : List.Forall₂ Table.Agree d.tables e.tables

theorem agree_empty (σ τ : Strategy) (keyColumn : String) :
    (empty ⟨σ, keyColumn⟩).Agree (empty ⟨τ, keyColumn⟩) :=
  ⟨rfl, .nil⟩

theorem find?_agree (name : String) : ∀ {ts us : List Table}, List.Forall₂ Table.Agree ts us →
    (ts.find? (·.name == name) = none ∧ us.find? (·.name == name) = none) ∨
      ∃ t u, ts.find? (·.name == name) = some t ∧ us.find? (·.name == name) = some u ∧ t.Agree u
  | [], [], .nil => Or.inl ⟨rfl, rfl⟩
  | t :: ts, u :: us, .cons h hs => by
    rw [List.find?_cons, List.find?_cons, h.name_eq]
    split
    · exact Or.inr ⟨t, u, rfl, rfl, h⟩
    · exact find?_agree name hs

namespace Agree

variable {d e : Database} (h : d.Agree e)
include h

/-- Both databases lack the table of a name, or both have one and the two agree. -/
theorem table? (name : String) : (d.table? name = none ∧ e.table? name = none) ∨
    ∃ t u, d.table? name = some t ∧ e.table? name = some u ∧ t.Agree u :=
  find?_agree name h.tables

theorem replace {t u : Table} (htu : t.Agree u) : (d.replace t).Agree (e.replace u) := by
  refine ⟨h.keyColumn_eq, ?_⟩
  show List.Forall₂ _ (d.tables.map _) (e.tables.map _)
  rw [List.forall₂_map_left_iff, List.forall₂_map_right_iff]
  refine h.tables.imp fun t' u' h' => ?_
  rw [h'.name_eq, htu.name_eq]
  split
  · exact htu
  · exact h'

theorem keyIndex_eq (columns : List String) :
    keyIndex d.settings columns = keyIndex e.settings columns := by
  rw [keyIndex, keyIndex, h.keyColumn_eq]

/-! ## Each kind of statement -/

theorem create (name : String) (columns : List String) :
    SameResult (d.create name columns).1 (e.create name columns).1 ∧
      (d.create name columns).2.Agree (e.create name columns).2 := by
  unfold Database.create
  rcases h.table? name with ⟨hd, he⟩ | ⟨t, u, hd, he, -⟩
  · rw [hd, he]
    refine ⟨.refl _, h.keyColumn_eq, ?_⟩
    exact List.rel_append h.tables (.cons (Table.agree_empty ..) .nil)
  · rw [hd, he]
    exact ⟨.refl _, h⟩

theorem insert (name : String) (values : List String) :
    SameResult (d.insert name values).1 (e.insert name values).1 ∧
      (d.insert name values).2.Agree (e.insert name values).2 := by
  unfold Database.insert
  rcases h.table? name with ⟨hd, he⟩ | ⟨t, u, hd, he, htu⟩
  · rw [hd, he]
    exact ⟨.refl _, h⟩
  rw [hd, he]
  simp only [htu.columns_eq, h.keyIndex_eq]
  split
  · exact ⟨.refl _, h⟩
  rcases htu.insert (values.getD (keyIndex e.settings u.columns) "")
    (.ofPairs (u.columns.zip values)) with ⟨fault, ht, hu⟩ | ⟨t', u', ht, hu, htu'⟩
  · rw [Table.put_eq, Table.put_eq, ht, hu]
    exact ⟨.refl _, h.replace htu⟩
  · rw [Table.put_eq, Table.put_eq, ht, hu]
    exact ⟨.refl _, h.replace htu'⟩

theorem select (name : String) (f : Filter) :
    SameResult (d.select name f).1 (e.select name f).1 ∧
      (d.select name f).2.Agree (e.select name f).2 := by
  unfold Database.select
  rcases h.table? name with ⟨hd, he⟩ | ⟨t, u, hd, he, htu⟩
  · rw [hd, he]
    exact ⟨.refl _, h⟩
  · rw [hd, he]
    exact ⟨htu.select f, h⟩

theorem update (name column value : String) (f : Filter) :
    SameResult (d.update name column value f).1 (e.update name column value f).1 ∧
      (d.update name column value f).2.Agree (e.update name column value f).2 := by
  unfold Database.update
  rcases h.table? name with ⟨hd, he⟩ | ⟨t, u, hd, he, htu⟩
  · rw [hd, he]
    exact ⟨.refl _, h⟩
  obtain ⟨hcount, hagree⟩ := htu.update column value f
  simp only [hd, he, htu.hasColumn_eq, hcount]
  cases u.hasColumn column with
  | false => exact ⟨.refl _, h⟩
  | true => exact ⟨.refl _, h.replace hagree⟩

theorem delete (name : String) (f : Filter) :
    SameResult (d.delete name f).1 (e.delete name f).1 ∧
      (d.delete name f).2.Agree (e.delete name f).2 := by
  unfold Database.delete
  rcases h.table? name with ⟨hd, he⟩ | ⟨t, u, hd, he, htu⟩
  · rw [hd, he]
    exact ⟨.refl _, h⟩
  rw [hd, he]
  obtain ⟨hcount, hagree⟩ := htu.delete f
  simp only [hcount]
  exact ⟨.refl _, h.replace hagree⟩

/-! ## Every statement, and every text -/

theorem apply (statement : Statement) :
    SameResult (d.apply statement).1 (e.apply statement).1 ∧
      (d.apply statement).2.Agree (e.apply statement).2 := by
  cases statement with
  | create name columns => exact h.create name columns
  | insert name values => exact h.insert name values
  | select name f => exact h.select name f
  | update name column value f => exact h.update name column value f
  | delete name f => exact h.delete name f

theorem execute (text : String) : SameResult (d.execute text).1 (e.execute text).1 ∧
    (d.execute text).2.Agree (e.execute text).2 := by
  unfold Database.execute
  split
  · exact ⟨.refl _, h⟩
  · next statement _ => exact h.apply statement

omit h in
theorem history : ∀ {d e : Database} (texts : List String), d.Agree e →
    List.Forall₂ SameStep (d.history texts) (e.history texts)
  | _, _, [], _ => .nil
  | _, _, text :: texts, h => by
    obtain ⟨hresult, hagree⟩ := h.execute text
    exact .cons ⟨hresult, hagree.tables.imp fun _ _ => Table.Agree.same⟩ (history texts hagree)

end Agree

/-- Two databases without tables, of the same key column but different strategies, go
through the same steps under every list of texts. -/
theorem history_agree (σ τ : Strategy) (keyColumn : String) (texts : List String) :
    List.Forall₂ SameStep ((empty ⟨σ, keyColumn⟩).history texts)
      ((empty ⟨τ, keyColumn⟩).history texts) :=
  Agree.history texts (agree_empty σ τ keyColumn)

end Database

end TableEngine
