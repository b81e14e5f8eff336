import TableEngine.Table.Answer

/-!
# Outcomes

What a statement that succeeds has done, and the text that reports it.
-/

namespace TableEngine

/-- The result of a statement. -/
inductive Outcome
  | created (table : String)
  | inserted (table : String)
  | rows (answer : Answer)
  | updated (table : String) (count : Nat)
  | deleted (table : String) (count : Nat)
  deriving DecidableEq, Repr

namespace Outcome

/-- How many rows were touched, as a sentence. -/
def affected (count : Nat) : String :=
  if count = 1 then "1 row affected." else toString count ++ " rows affected."

/-- The report of an outcome. -/
def text : Outcome → String
  | created table => "Table " ++ table ++ " created"
  | inserted table => "Row inserted into " ++ table
  | rows answer => answer.text
  | updated table count => "Table " ++ table ++ " updated. " ++ affected count
  | deleted table count => "Rows deleted from " ++ table ++ ". " ++ affected count

/-- The number of rows listed or touched, for the statements that have one. -/
def count? : Outcome → Option Nat
  | created _ => none
  | inserted _ => none
  | rows answer => some answer.size
  | updated _ count => some count
  | deleted _ count => some count

end Outcome

end TableEngine
