import TableEngine.Row.Filter

/-!
# Statements

The five statements of the language. Names, values and literals are kept exactly as they
were written.
-/

namespace TableEngine

/-- The five kinds of statement. -/
inductive StatementKind
  | create
  | insert
  | select
  | update
  | delete
  deriving DecidableEq, Repr

/-- The words a kind of statement is called by in messages. -/
def StatementKind.label : StatementKind → String
  | create => "CREATE TABLE"
  | insert => "INSERT INTO"
  | select => "SELECT"
  | update => "UPDATE"
  | delete => "DELETE"

/-- A statement. -/
inductive Statement
  /-- Make a table with the given columns. -/
  | create (table : String) (columns : List String)
  /-- Store a row; the values stand in the order of the columns. -/
  | insert (table : String) (values : List String)
  /-- List the rows that the filter accepts. -/
  | select (table : String) (filter : Filter)
  /-- Set a column in every row that the filter accepts. -/
  | update (table column value : String) (filter : Filter)
  /-- Remove every row that the filter accepts. -/
  | delete (table : String) (filter : Filter)
  deriving DecidableEq, Repr

end TableEngine
