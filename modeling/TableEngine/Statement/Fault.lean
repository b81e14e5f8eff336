import TableEngine.Statement.Basic
import TableEngine.Text.Quoted

/-!
# Faults

Why a statement can fail, and the message of each cause. An absent key is never a fault.
-/

namespace TableEngine

/-- The part of a statement that a word should name. -/
inductive Part
  | tableName
  | column
  | value
  deriving DecidableEq, Repr

def Part.label : Part → String
  | tableName => "table name"
  | column => "column"
  | value => "value"

/-- What is wrong with the words of a statement. -/
inductive Defect
  /-- A keyword was expected and another word, or the end, was found. -/
  | expected (keyword : String) (found : Option String)
  | missing (part : Part)
  | noColumns
  | noValues
  /-- An operator with no word before it. -/
  | noColumnFor (comparison : Comparison)
  deriving DecidableEq, Repr

def Defect.message : Defect → String
  | expected keyword (some word) =>
    "expected " ++ keyword ++ ", found " ++ Text.quoted word
  | expected keyword none => "expected " ++ keyword ++ ", found end of statement"
  | missing part => "missing " ++ part.label
  | noColumns => "no columns declared"
  | noValues => "no values given"
  | noColumnFor comparison => "operator " ++ comparison.symbol ++ " has no column"

/-- Why a statement fails. -/
inductive Fault
  | emptyStatement
  | unknownCommand (word : String)
  | malformed (statement : StatementKind) (defect : Defect)
  | noSuchTable (table : String)
  | tableExists (table : String)
  | columnCount (expected found : Nat)
  | noSuchColumn (table column : String)
  /-- A row lacks declared columns; they are listed in declared order. -/
  | rowShape (table : String) (missing : List String)
  | unknownStrategy (word : String)
  deriving DecidableEq, Repr

def Fault.message : Fault → String
  | emptyStatement => "empty statement"
  | unknownCommand word => "unknown command " ++ Text.quoted word
  | malformed statement defect =>
    "invalid " ++ statement.label ++ " syntax: " ++ defect.message
  | noSuchTable table => "no such table: " ++ table
  | tableExists table => "table " ++ table ++ " already exists"
  | columnCount expected found =>
    "column count doesn't match value count: expected " ++ toString expected ++ ", found " ++
      toString found
  | noSuchColumn table column =>
    "no such column " ++ Text.quoted column ++ " in table " ++ Text.quoted table
  | rowShape table missing =>
    "row for table " ++ Text.quoted table ++ " is missing columns " ++ Text.quotedList missing
  | unknownStrategy word =>
    "unknown store kind " ++ Text.quoted word ++
      ", expected one of chaining, linear, quadratic, double"

end TableEngine
