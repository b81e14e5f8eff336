import TableEngine.Table.Scan

/-!
# The scheme of a table

A table keeps its name, its columns and the strategy of its store whatever happens to its rows
(`Table.SameScheme`) : an insertion, a removal and a value set in a row keep them, and so do an
update and a removal of many rows, which are made of these, key by key.
-/

namespace TableEngine

namespace Store

variable {K V : Type}

theorem strategy_empty (σ : Strategy) : (empty σ : Store K V).strategy = σ := by
  cases σ <;> rfl

variable [DecidableEq K] [StoreKey K] (s : Store K V) (key : K)

theorem strategy_insert (value : V) : (s.insert key value).strategy = s.strategy := by
  cases s <;> rfl

theorem strategy_modify (f : V → V) : (s.modify key f).strategy = s.strategy := by
  cases s <;> rfl

theorem strategy_remove : (s.remove key).2.strategy = s.strategy := by
  cases s <;> rfl

end Store

namespace Table

/-- Equal names, columns and strategies, whatever the rows. -/
structure SameScheme (t' t : Table) : Prop where
  name_eq : t'.name = t.name
  columns_eq : t'.columns = t.columns
  strategy_eq : t'.rows.strategy = t.rows.strategy

theorem SameScheme.refl (t : Table) : t.SameScheme t := ⟨rfl, rfl, rfl⟩

theorem SameScheme.trans {t t' t'' : Table} (h' : t''.SameScheme t') (h : t'.SameScheme t) :
    t''.SameScheme t where
  name_eq := h'.name_eq.trans h.name_eq
  columns_eq := h'.columns_eq.trans h.columns_eq
  strategy_eq := h'.strategy_eq.trans h.strategy_eq

theorem SameScheme.symm {t t' : Table} (h : t'.SameScheme t) : t.SameScheme t' where
  name_eq := h.name_eq.symm
  columns_eq := h.columns_eq.symm
  strategy_eq := h.strategy_eq.symm

theorem sameScheme_setValue (t : Table) (key column value : String) :
    (t.setValue key column value).SameScheme t :=
  ⟨rfl, rfl, t.rows.strategy_modify key _⟩

theorem sameScheme_remove (t : Table) (key : String) : (t.remove key).2.SameScheme t :=
  ⟨rfl, rfl, t.rows.strategy_remove key⟩

theorem sameScheme_insert {t t' : Table} {key : String} {row : Row}
    (h : t.insert key row = .ok t') : t'.SameScheme t := by
  rcases insert_cases t key row with ⟨-, hinsert⟩ | ⟨-, hinsert⟩
  · obtain rfl := Except.ok.inj (hinsert.symm.trans h)
    exact ⟨rfl, rfl, t.rows.strategy_insert key row⟩
  · rw [hinsert] at h
    cases h

theorem sameScheme_setEach (column value : String) : ∀ (keys : List String) (t : Table),
    (t.setEach column value keys).2.SameScheme t
  | [], t => .refl t
  | key :: keys, t => by
    unfold setEach
    split
    · exact sameScheme_setEach column value keys t
    · exact (sameScheme_setEach column value keys _).trans (t.sameScheme_setValue key column value)

theorem sameScheme_removeEach : ∀ (keys : List String) (t : Table),
    (t.removeEach keys).2.SameScheme t
  | [], t => .refl t
  | key :: keys, t => by
    have hremove := t.sameScheme_remove key
    unfold removeEach
    split
    · next t' ht =>
      rw [ht] at hremove
      exact (sameScheme_removeEach keys t').trans hremove
    · next t' ht =>
      rw [ht] at hremove
      exact (sameScheme_removeEach keys t').trans hremove

end Table

end TableEngine
