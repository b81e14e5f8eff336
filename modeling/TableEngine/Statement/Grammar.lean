import TableEngine.Statement.Fault
import TableEngine.Text.Words

/-!
# The grammar of statements

A statement is read from its words. Keywords are understood in any case; every other word is
taken as it stands.

* `Filter.ofWords` scans the words after `WHERE`: an operator takes the word before it as
  its column and the word after it as its literal, whatever that word is.
* `items` reads the list of columns or values: the words joined by spaces, parentheses
  deleted, split at commas and trimmed; empty items are dropped.
* `Statement.ofWords` and `Statement.ofText` read a whole statement.
-/

namespace TableEngine

/-! ## Filters -/

/-- Scan words for connectives and operators; `previous` is the word before them. A word that
is neither is passed over, to be the column of the operator that may follow. -/
def Filter.scan (kind : StatementKind) (previous : Option String) :
    List String → Except Fault Filter
  | [] => .ok []
  | w :: rest =>
    match Connective.ofWord? w, Comparison.ofSymbol? w with
    | some c, _ => (scan kind (some w) rest).map (.join c :: ·)
    | none, none => scan kind (some w) rest
    | none, some op =>
      match previous, rest with
      | none, _ => .error (.malformed kind (.noColumnFor op))
      | some column, [] => .ok [.test ⟨column, op, none⟩]
      | some column, literal :: rest =>
        (scan kind (some literal) rest).map (.test ⟨column, op, some literal⟩ :: ·)

/-- The filter that the words after `WHERE` write. -/
def Filter.ofWords (kind : StatementKind) (words : List String) : Except Fault Filter :=
  Filter.scan kind none words

/-! ## Lists -/

/-- Split at commas. -/
def splitCommas : List Char → List (List Char)
  | [] => [[]]
  | c :: cs =>
    if c == ',' then [] :: splitCommas cs
    else
      match splitCommas cs with
      | [] => [[c]]
      | item :: rest => (c :: item) :: rest

/-- The items of a list of columns or values. -/
def items (words : List String) : List String :=
  let joined := (" ".intercalate words).toList
  let bare := joined.filter fun c => c != '(' && c != ')'
  (((splitCommas bare).map Text.trim).filter fun item => !item.isEmpty).map String.ofList

namespace Statement

/-! ## Statements -/

/-- Drop a keyword, in any case, from the front. -/
def dropKeyword (kind : StatementKind) (keyword : String) :
    List String → Except Fault (List String)
  | [] => .error (.malformed kind (.expected keyword none))
  | w :: rest =>
    if Text.sameWord w keyword then .ok rest
    else .error (.malformed kind (.expected keyword (some w)))

/-- Take a word that names a part of the statement. -/
def takeWord (kind : StatementKind) (part : Part) :
    List String → Except Fault (String × List String)
  | [] => .error (.malformed kind (.missing part))
  | w :: rest => .ok (w, rest)

/-- The filter at the end of a statement; no words mean no filter. -/
def whereClause (kind : StatementKind) : List String → Except Fault Filter
  | [] => .ok []
  | words => do Filter.ofWords kind (← dropKeyword kind "WHERE" words)

/-- `CREATE TABLE table columns` after its first word. -/
def createOf (words : List String) : Except Fault Statement := do
  let words ← dropKeyword .create "TABLE" words
  let (table, words) ← takeWord .create .tableName words
  match items words with
  | [] => .error (.malformed .create .noColumns)
  | columns => .ok (.create table columns)

/-- `INSERT INTO table VALUES values` after its first word. -/
def insertOf (words : List String) : Except Fault Statement := do
  let words ← dropKeyword .insert "INTO" words
  let (table, words) ← takeWord .insert .tableName words
  let words ← dropKeyword .insert "VALUES" words
  match items words with
  | [] => .error (.malformed .insert .noValues)
  | values => .ok (.insert table values)

/-- `SELECT * FROM table` and a filter after its first word. -/
def selectOf (words : List String) : Except Fault Statement := do
  let words ← dropKeyword .select "*" words
  let words ← dropKeyword .select "FROM" words
  let (table, words) ← takeWord .select .tableName words
  let filter ← whereClause .select words
  .ok (.select table filter)

/-- `UPDATE table SET column = value` and a filter after its first word. -/
def updateOf (words : List String) : Except Fault Statement := do
  let (table, words) ← takeWord .update .tableName words
  let words ← dropKeyword .update "SET" words
  let (column, words) ← takeWord .update .column words
  let words ← dropKeyword .update "=" words
  let (value, words) ← takeWord .update .value words
  let filter ← whereClause .update words
  .ok (.update table column value filter)

/-- `DELETE FROM table` and a filter after its first word. -/
def deleteOf (words : List String) : Except Fault Statement := do
  let words ← dropKeyword .delete "FROM" words
  let (table, words) ← takeWord .delete .tableName words
  let filter ← whereClause .delete words
  .ok (.delete table filter)

/-- The statement that the words write. -/
def ofWords : List String → Except Fault Statement
  | [] => .error .emptyStatement
  | command :: words =>
    if Text.sameWord command "CREATE" then createOf words
    else if Text.sameWord command "INSERT" then insertOf words
    else if Text.sameWord command "SELECT" then selectOf words
    else if Text.sameWord command "UPDATE" then updateOf words
    else if Text.sameWord command "DELETE" then deleteOf words
    else .error (.unknownCommand command)

/-- The statement that a text writes. -/
def ofText (text : String) : Except Fault Statement := ofWords (Text.words text)

end Statement

end TableEngine
