import TableEngine.Proofs.Checked.Reading
import TableEngine.Proofs.Engine.Keys
import TableEngine.Proofs.Statement.Recognition

/-!
# No text leads to an impossible case

Two steps of a statement rely on what was checked before them : the words are taken from a
place that must not be past their end, and the key of a new row is looked up among its
values. With both steps checked, every text has on every database the answer that it
has without the checks, and the answer is never the fault of a row that lacks columns or of an
unknown strategy (`Database.checkedExecute_eq`).

The tables may be any, also tables without columns or with one column many times. A statement
that is read has at least one value (`Statement.values_ne_nil_of_ofWords`), so a table that
takes it has a column, and the position of the key is below the number of values
(`Database.getElem?_values_keyIndex`). The row has a value for each column, whatever the columns
are (`Table.exists_insert`).
-/

namespace TableEngine

open Checked

/-- The fault can be one of a statement : it is neither that a row lacks columns, nor that a
strategy is unknown. -/
def Fault.OfStatement : Fault → Prop
  | rowShape _ _ | unknownStrategy _ => False
  | _ => True

namespace Statement

variable {ws : List String}

theorem values_ne_nil_of_ofWords {table : String} {values : List String}
    (h : ofWords ws = .ok (.insert table values)) : values ≠ [] := by
  cases derives_of_ofWords h with
  | insert _ _ _ _ hne => exact hne

theorem ofStatement_of_ofWords {fault : Fault} (h : ofWords ws = .error fault) :
    fault.OfStatement := by
  rcases ofWords_cases ws with ⟨-, h'⟩ | ⟨_, -, -, h'⟩ | ⟨_, _, -, -, ⟨_, h'⟩ | ⟨_, h'⟩⟩
  all_goals
    rw [h'] at h
    cases h <;> trivial

end Statement

namespace Database

variable {db : Database} {name : String} {values : List String}

/-- `insert`, the key looked up with a check. -/
def checkedInsert (db : Database) (name : String) (values : List String) : Checked Step :=
  match db.table? name with
  | none => .ok (.error (.noSuchTable name), db)
  | some t =>
    if values.length ≠ t.columns.length then
      .ok (.error (.columnCount t.columns.length values.length), db)
    else do
      let key ← found values[keyIndex db.settings t.columns]? .outOfBounds
      match t.put key (.ofPairs (t.columns.zip values)) with
      | (.error fault, t) => .ok (.error fault, db.replace t)
      | (.ok (), t) => .ok (.ok (.inserted name), db.replace t)

/-- `apply`, with the check of an insertion. -/
def checkedApply (db : Database) : Statement → Checked Step
  | .insert table values => db.checkedInsert table values
  | st => .ok (db.apply st)

/-- `execute`, with the checks of the reader and of an insertion. -/
def checkedExecute (db : Database) (text : String) : Checked Step := do
  match ← Statement.checkedOfWords (Text.words text) with
  | .error fault => .ok (.error fault, db)
  | .ok statement => db.checkedApply statement

/-- With some values, one of them is the key of every table that takes as many. -/
theorem checkedInsert_eq (hne : values ≠ []) :
    db.checkedInsert name values = .ok (db.insert name values) := by
  unfold checkedInsert insert
  cases db.table? name with
  | none => rfl
  | some t =>
    simp only
    split
    · rfl
    · next hlength =>
      have hlen : values.length = t.columns.length := Decidable.not_not.mp hlength
      have hcolumns : t.columns ≠ [] := by
        rw [← List.length_pos_iff, ← hlen]
        exact List.length_pos_iff.mpr hne
      obtain ⟨t', ht'⟩ := t.exists_insert (values.getD (keyIndex db.settings t.columns) "") hlen
      rw [getElem?_values_keyIndex hlen hcolumns, found, bind_ok]
      simp only [Table.put_eq, ht']

/-- Without values, a table without columns has nothing to take the key from. -/
example : ((empty .standard).create "t" []).2.checkedInsert "t" [] = .error .outOfBounds := rfl

theorem ofStatement_of_apply {st : Statement} {fault : Fault}
    (h : (db.apply st).1 = .error fault) : fault.OfStatement := by
  cases st with
  | create name columns =>
    simp only [apply, create] at h
    split at h <;> cases h
    trivial
  | insert name values =>
    simp only [apply, insert] at h
    split at h
    · cases h
      trivial
    · next t _ =>
      split at h
      · cases h
        trivial
      · next hlength =>
        obtain ⟨t', ht'⟩ := t.exists_insert (values.getD (keyIndex db.settings t.columns) "")
          (Decidable.not_not.mp hlength)
        simp only [Table.put_eq, ht'] at h
        cases h
  | select name f =>
    simp only [apply, select] at h
    split at h <;> cases h
    trivial
  | update name column value f =>
    simp only [apply, update] at h
    split at h
    · cases h
      trivial
    · split at h <;> cases h
      trivial
  | delete name f =>
    simp only [apply, delete] at h
    split at h <;> cases h
    trivial

theorem ofStatement_of_execute {text : String} {fault : Fault}
    (h : (db.execute text).1 = .error fault) : fault.OfStatement := by
  unfold execute at h
  split at h
  · next hread =>
    cases h
    exact Statement.ofStatement_of_ofWords hread
  · exact ofStatement_of_apply h

theorem checkedApply_eq_of_ofWords {ws : List String} {st : Statement}
    (h : Statement.ofWords ws = .ok st) : db.checkedApply st = .ok (db.apply st) := by
  cases st with
  | insert name values => exact checkedInsert_eq (Statement.values_ne_nil_of_ofWords h)
  | _ => rfl

/-- Every text has on every database the answer, and leads to the database, that it has without
checks : the reader never takes words from past their end, and the key of a row is always one of
its values. The answer is neither that a row lacks columns nor that a strategy is unknown. -/
theorem checkedExecute_eq (db : Database) (text : String) :
    db.checkedExecute text = .ok (db.execute text) ∧
      (∀ table missing, (db.execute text).1 ≠ .error (.rowShape table missing)) ∧
      ∀ word, (db.execute text).1 ≠ .error (.unknownStrategy word) := by
  refine ⟨?_, fun _ _ h => ofStatement_of_execute h, fun _ h => ofStatement_of_execute h⟩
  rw [checkedExecute, Statement.checkedOfWords_eq, bind_ok]
  unfold execute Statement.ofText
  cases hread : Statement.ofWords (Text.words text) with
  | error fault => rfl
  | ok st => exact checkedApply_eq_of_ofWords hread

end Database

end TableEngine
