import TableEngine.Row.Basic
import TableEngine.Statement.Fault
import TableEngine.Store.Basic

/-!
# Tables

A table has a name, a list of declared columns and a store of rows. The columns give the order
in which a row is shown, whatever the order of the rows in the store. A row has a value for
every declared column; it may have further columns. A key has at most one row, and a row that
is added under a key in use replaces the earlier one.
-/

namespace TableEngine

/-- Declared columns and a store of rows. -/
structure Table where
  name : String
  columns : List String
  rows : Store String Row

namespace Table

/-- A table without rows. -/
def empty (name : String) (columns : List String) (strategy : Strategy) : Table :=
  ⟨name, columns, .empty strategy⟩

/-- The number of rows. -/
def size (t : Table) : Nat := t.rows.size

def isEmpty (t : Table) : Bool := t.rows.isEmpty

/-- The number of places of the store. -/
def capacity (t : Table) : Nat := t.rows.capacity

/-- The keys of the rows, in the order of the store. -/
def keys (t : Table) : List String := t.rows.keys

def hasColumn (t : Table) (column : String) : Bool := t.columns.contains column

/-- The declared columns that the row lacks, in declared order. -/
def missing (t : Table) (row : Row) : List String :=
  t.columns.filter fun column => !row.contains column

/-- Store a row under a key. A row that lacks a declared column is refused. The answer comes with
the table afterwards. -/
def put (t : Table) (key : String) (row : Row) : Except Fault Unit × Table :=
  match t.missing row with
  | [] => (.ok (), { t with rows := t.rows.insert key row })
  | missing => (.error (.rowShape t.name missing), t)

/-- The table with a row stored under a key, or the fault alone. -/
def insert (t : Table) (key : String) (row : Row) : Except Fault Table :=
  match t.put key row with
  | (.ok (), t) => .ok t
  | (.error fault, _) => .error fault

/-- A row is stored if it lacks no declared column, and otherwise refused with what it lacks. -/
theorem insert_cases (t : Table) (key : String) (row : Row) :
    (t.missing row = [] ∧ t.insert key row = .ok { t with rows := t.rows.insert key row }) ∨
    (t.missing row ≠ [] ∧ t.insert key row = .error (.rowShape t.name (t.missing row))) := by
  unfold insert put
  cases t.missing row with
  | nil => exact Or.inl ⟨rfl, rfl⟩
  | cons column rest => exact Or.inr ⟨List.cons_ne_nil column rest, rfl⟩

/-- A table that refuses a row is left as it is. -/
theorem put_eq (t : Table) (key : String) (row : Row) : t.put key row =
    match t.insert key row with
    | .ok t' => (.ok (), t')
    | .error fault => (.error fault, t) := by
  unfold insert put
  cases t.missing row <;> rfl

/-- The row under a key. -/
def get? (t : Table) (key : String) : Option Row := t.rows.get? key

/-- Set one column of the row under a key; an absent key changes nothing. -/
def setValue (t : Table) (key column value : String) : Table :=
  { t with rows := t.rows.modify key fun row => row.set column value }

/-- Remove the row under a key. -/
def remove (t : Table) (key : String) : Option Row × Table :=
  match t.rows.remove key with
  | (row, rows) => (row, { t with rows := rows })

end Table

end TableEngine
