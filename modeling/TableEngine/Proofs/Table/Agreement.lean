import TableEngine.Proofs.Store.Agreement
import TableEngine.Table.Scan

/-!
# Tables on agreeing stores

Tables agree (`Table.Agree`) if they have one name, the same columns and agreeing
stores. Every operation of a table answers alike on agreeing tables, a selection up to
the order of its rows (`Table.Agree.select`), and leaves them in agreement.

The scans meet the keys in different orders. What an update or a removal leaves is read
off the view (`setEach_shows`, `removeEach_shows`), where the order does not count. How
many rows it touched is the number of the given keys that have a row
(`count_setEach`), or the loss in size (`count_removeEach`).
-/

namespace TableEngine.Table

/-- `t'` has the name and the columns of `t`, and sound rows with the view `v`. -/
structure Shows (t' t : Table) (v : View String Row) : Prop where
  name_eq : t'.name = t.name
  columns_eq : t'.columns = t.columns
  sound : t'.rows.Sound
  view_eq : t'.rows.view = v

/-- Equal names and columns, and agreeing stores. -/
structure Agree (t u : Table) : Prop where
  name_eq : t.name = u.name
  columns_eq : t.columns = u.columns
  rows : t.rows.Agree u.rows

theorem Shows.refl {t : Table} (h : t.rows.Sound) : t.Shows t t.rows.view := ⟨rfl, rfl, h, rfl⟩

theorem Shows.trans {t t' t'' : Table} {v v' : View String Row} (h' : t''.Shows t' v')
    (h : t'.Shows t v) : t''.Shows t v' :=
  ⟨h'.name_eq.trans h.name_eq, h'.columns_eq.trans h.columns_eq, h'.sound, h'.view_eq⟩

theorem Shows.agree {t t' u u' : Table} {v : View String Row} (ht : t'.Shows t v)
    (hu : u'.Shows u v) (h : t.Agree u) : t'.Agree u' where
  name_eq := by rw [ht.name_eq, hu.name_eq, h.name_eq]
  columns_eq := by rw [ht.columns_eq, hu.columns_eq, h.columns_eq]
  rows := ⟨ht.sound, hu.sound, ht.view_eq.trans hu.view_eq.symm⟩

theorem agree_empty (name : String) (columns : List String) (σ τ : Strategy) :
    (empty name columns σ).Agree (empty name columns τ) :=
  ⟨rfl, rfl, Store.agree_empty σ τ⟩

/-! ## One key after another -/

section Each

variable {t : Table} (column value : String)

theorem setValue_shows (key : String) (h : t.rows.Sound) :
    (t.setValue key column value).Shows t (t.rows.view.modify key (Row.set · column value)) :=
  ⟨rfl, rfl, (h.modify key _).1, (h.modify key _).2⟩

theorem remove_shows (key : String) (h : t.rows.Sound) :
    (t.remove key).2.Shows t (t.rows.view.remove key).2 :=
  ⟨rfl, rfl, (h.remove key).2.1, (h.remove key).2.2⟩

theorem setEach_shows : ∀ (keys : List String) {t : Table}, t.rows.Sound →
    (t.setEach column value keys).2.Shows t
      (t.rows.view.modifyAll (Row.set · column value) keys)
  | [], _, h => .refl h
  | key :: keys, t, h => by
    have hset := setValue_shows column value key h
    rw [View.modifyAll, List.foldl_cons, ← View.modifyAll, setEach]
    split
    · next hk =>
      rw [View.modify_of_none hk]
      exact setEach_shows keys h
    · rw [← hset.view_eq]
      exact (setEach_shows keys hset.sound).trans hset

theorem removeEach_cons (key : String) (keys : List String) : t.removeEach (key :: keys) =
    (((t.remove key).2.removeEach keys).1 + (if (t.remove key).1.isSome then 1 else 0),
      ((t.remove key).2.removeEach keys).2) := by
  rw [removeEach]
  rcases t.remove key with ⟨_ | _, t'⟩ <;> rfl

theorem removeEach_shows : ∀ (keys : List String) {t : Table}, t.rows.Sound →
    (t.removeEach keys).2.Shows t (t.rows.view.removeAll keys)
  | [], _, h => .refl h
  | key :: keys, t, h => by
    have hremove := remove_shows key h
    rw [View.removeAll, List.foldl_cons, ← View.removeAll, ← hremove.view_eq, removeEach_cons]
    exact (removeEach_shows keys hremove.sound).trans hremove

/-- A change in place is counted for each of the keys that has a row. -/
theorem count_setEach : ∀ (keys : List String) {t : Table}, t.rows.Sound →
    (t.setEach column value keys).1 = keys.countP fun key => (t.get? key).isSome
  | [], _, _ => rfl
  | key :: keys, t, h => by
    have hset := setValue_shows column value key h
    have hkept : ∀ k, ((t.setValue key column value).get? k).isSome = (t.get? k).isSome := by
      intro k
      have hget : (t.setValue key column value).get? k = _ :=
        congrFun (congrArg View.get? hset.view_eq) k
      rw [hget, View.isSome_modify]
      rfl
    rw [setEach, List.countP_cons]
    split
    · next hk => rw [count_setEach keys h, hk, if_neg (by simp), Nat.add_zero]
    · next hk =>
      have ih := count_setEach keys hset.sound
      simp only [hkept] at ih
      simp only [ih, hk, Option.isSome_some, if_true]

/-- A removal is counted whenever the table gets smaller. -/
theorem count_removeEach : ∀ (keys : List String) {t : Table}, t.rows.Sound →
    (t.removeEach keys).1 + (t.removeEach keys).2.size = t.size
  | [], _, _ => Nat.zero_add _
  | key :: keys, t, h => by
    have ih := count_removeEach keys (remove_shows key h).sound
    have hsize : (t.remove key).2.size + (if (t.remove key).1.isSome then 1 else 0) = t.size :=
      h.size_remove key
    simp only [removeEach_cons]
    omega

end Each

/-! ## Agreeing tables answer alike -/

namespace Agree

variable {t u : Table} (h : t.Agree u)
include h

theorem get?_eq (key : String) : t.get? key = u.get? key := h.rows.get?_eq key

theorem hasColumn_eq (column : String) : t.hasColumn column = u.hasColumn column := by
  rw [hasColumn, hasColumn, h.columns_eq]

theorem missing_eq (row : Row) : t.missing row = u.missing row := by
  rw [missing, missing, h.columns_eq]

/-- An insertion is refused by both tables for one reason, or done by both. -/
theorem insert (key : String) (row : Row) :
    (∃ fault, t.insert key row = .error fault ∧ u.insert key row = .error fault) ∨
      ∃ t' u', t.insert key row = .ok t' ∧ u.insert key row = .ok u' ∧ t'.Agree u' := by
  unfold Table.insert put
  rw [h.missing_eq, h.name_eq]
  cases u.missing row with
  | nil => exact Or.inr ⟨_, _, rfl, rfl, rfl, h.columns_eq, h.rows.insert key row⟩
  | cons column missing => exact Or.inl ⟨_, rfl, rfl⟩

theorem perm_matchingKeys (f : Filter) : (t.matchingKeys f).Perm (u.matchingKeys f) := by
  unfold matchingKeys
  simp only [h.get?_eq]
  exact h.rows.perm_keys.filter _

/-- The same rows are selected, in some order. -/
theorem select (f : Filter) :
    (t.select f).columns = (u.select f).columns ∧ (t.select f).rows.Perm (u.select f).rows := by
  refine ⟨h.columns_eq, ?_⟩
  have hget : t.get? = u.get? := funext h.get?_eq
  have hproject : t.project = u.project := by
    funext row
    rw [project, project, h.columns_eq]
  simp only [Table.select, hget, hproject]
  exact ((h.rows.perm_keys.filterMap _).filter _).map _

/-- The same rows are changed, in some order. -/
theorem update (column value : String) (f : Filter) :
    (t.update column value f).1 = (u.update column value f).1 ∧
      (t.update column value f).2.Agree (u.update column value f).2 := by
  have hp := h.perm_matchingKeys f
  have ht := setEach_shows column value (t.matchingKeys f) h.rows.left
  have hu := setEach_shows column value (u.matchingKeys f) h.rows.right
  unfold Table.update
  -- both sweeps start from one view, so the order of the keys is all they differ in
  constructor
  · rw [count_setEach _ _ _ h.rows.left, count_setEach _ _ _ h.rows.right, hp.countP_eq]
    simp only [h.get?_eq]
  · rw [← h.rows.view_eq, ← View.modifyAll_perm _ _ hp] at hu
    exact ht.agree hu h

/-- The same rows are removed, in some order. -/
theorem delete (f : Filter) : (t.delete f).1 = (u.delete f).1 ∧
    (t.delete f).2.Agree (u.delete f).2 := by
  have hp := h.perm_matchingKeys f
  have ht := removeEach_shows (t.matchingKeys f) h.rows.left
  have hu := removeEach_shows (u.matchingKeys f) h.rows.right
  rw [← h.rows.view_eq, ← View.removeAll_perm _ hp] at hu
  have hagree := ht.agree hu h
  refine ⟨?_, hagree⟩
  -- equally large before and after, both tables have lost equally many rows
  have hct := count_removeEach (t.matchingKeys f) h.rows.left
  have hcu := count_removeEach (u.matchingKeys f) h.rows.right
  have hbefore : t.size = u.size := h.rows.size_eq
  have hafter : (t.delete f).2.size = (u.delete f).2.size := hagree.rows.size_eq
  unfold Table.delete at hafter ⊢
  omega

end Agree

end TableEngine.Table
