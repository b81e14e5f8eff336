import TableEngine.Row.Filter
import TableEngine.Table.Answer
import TableEngine.Table.Basic

/-!
# Scans

Selection, update and removal of the rows that a filter accepts. Every scan walks all keys of
the table in store order. The keys that match are collected before anything is written, so
neither new values nor a store that shrinks on the way changes which rows are touched.
-/

namespace TableEngine.Table

/-- The keys of the rows that the filter accepts, in store order. -/
def matchingKeys (t : Table) (f : Filter) : List String :=
  t.keys.filter fun key =>
    match t.get? key with
    | some row => f.accepts row
    | none => false

/-- The values of a row in the order of the declared columns. -/
def project (t : Table) (row : Row) : List (Option String) := t.columns.map row.get?

/-- The rows that the filter accepts, in store order. -/
def select (t : Table) (f : Filter) : Answer :=
  ⟨t.columns, ((t.keys.filterMap t.get?).filter f.accepts).map t.project⟩

/-- Set a column under each of the keys, and count those that have a row. -/
def setEach (t : Table) (column value : String) : List String → Nat × Table
  | [] => (0, t)
  | key :: keys =>
    match t.get? key with
    | none => setEach t column value keys
    | some _ =>
      match setEach (t.setValue key column value) column value keys with
      | (count, t) => (count + 1, t)

/-- Remove each of the keys, and count those that had a row. -/
def removeEach (t : Table) : List String → Nat × Table
  | [] => (0, t)
  | key :: keys =>
    match t.remove key with
    | (none, t) => removeEach t keys
    | (some _, t) =>
      match removeEach t keys with
      | (count, t) => (count + 1, t)

/-- Set a column in every row that the filter accepts, and count them. The rows keep their
keys, whichever column is set. -/
def update (t : Table) (column value : String) (f : Filter) : Nat × Table :=
  t.setEach column value (t.matchingKeys f)

/-- Remove every row that the filter accepts, and count them. -/
def delete (t : Table) (f : Filter) : Nat × Table :=
  t.removeEach (t.matchingKeys f)

end TableEngine.Table
