/-!
# Answers

The rows that a selection lists. As text, an answer is a line of column names and a line for
each row; names and values are separated by tabs, and a missing value is shown as `NULL`.
-/

namespace TableEngine

/-- Columns, and rows with a value, if there is one, for each of them. -/
structure Answer where
  columns : List String
  rows : List (List (Option String))
  deriving DecidableEq, Repr

namespace Answer

/-- How a missing value is shown. -/
def missingValue : String := "NULL"

/-- The number of rows. -/
def size (a : Answer) : Nat := a.rows.length

def isEmpty (a : Answer) : Bool := a.rows.isEmpty

/-- The line of a row. -/
def rowLine (row : List (Option String)) : String :=
  "\t".intercalate (row.map fun value => value.getD missingValue)

/-- A header line and a line for each row. -/
def text (a : Answer) : String :=
  "\n".intercalate ("\t".intercalate a.columns :: a.rows.map rowLine)

end Answer

end TableEngine
