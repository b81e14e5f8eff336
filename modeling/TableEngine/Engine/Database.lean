import TableEngine.Engine.Outcome
import TableEngine.Statement.Grammar
import TableEngine.Table.Scan

/-!
# Databases

A database holds tables of different names. Its settings, the strategy of new tables and the
name of the key column, are fixed when it is made.

`Database.execute` reads a statement from a text and applies it. The answer is the outcome or
the fault, and the database afterwards. `Database.run` answers with text instead.
-/

namespace TableEngine

/-- The settings of a database. -/
structure Settings where
  /-- The strategy of every table that is created. -/
  strategy : Strategy
  /-- The column whose value is the key of a row. In a table without it, the first column is. -/
  keyColumn : String
  deriving DecidableEq, Repr

/-- Linear probing, keyed by the column `id`. -/
def Settings.standard : Settings := ⟨.probing .linear, "id"⟩

/-- Settings and tables, in the order in which the tables were created. -/
structure Database where
  settings : Settings
  tables : List Table

namespace Database

/-- A database without tables. -/
def empty (settings : Settings) : Database := ⟨settings, []⟩

/-- The table of a name. -/
def table? (db : Database) (name : String) : Option Table :=
  db.tables.find? fun t => t.name == name

/-- Put a table in the place of the one of the same name. -/
def replace (db : Database) (table : Table) : Database :=
  { db with tables := db.tables.map fun t => if t.name = table.name then table else t }

/-- The tables in the order of their names. -/
def listing (db : Database) : List Table :=
  db.tables.mergeSort fun a b => a.name ≤ b.name

/-- The position of the key among the values of a row. -/
def keyIndex (settings : Settings) (columns : List String) : Nat :=
  (columns.findIdx? fun column => column == settings.keyColumn).getD 0

/-- An outcome or a fault, and the database afterwards. -/
abbrev Step := Except Fault Outcome × Database

/-- Add an empty table. -/
def create (db : Database) (name : String) (columns : List String) : Step :=
  match db.table? name with
  | some _ => (.error (.tableExists name), db)
  | none =>
    (.ok (.created name),
      { db with tables := db.tables ++ [.empty name columns db.settings.strategy] })

/-- Store a row of values under the value of the key column. -/
def insert (db : Database) (name : String) (values : List String) : Step :=
  match db.table? name with
  | none => (.error (.noSuchTable name), db)
  | some t =>
    if values.length ≠ t.columns.length then
      (.error (.columnCount t.columns.length values.length), db)
    else
      let key := values.getD (keyIndex db.settings t.columns) ""
      match t.put key (.ofPairs (t.columns.zip values)) with
      | (.error fault, t) => (.error fault, db.replace t)
      | (.ok (), t) => (.ok (.inserted name), db.replace t)

/-- List rows. -/
def select (db : Database) (name : String) (f : Filter) : Step :=
  match db.table? name with
  | none => (.error (.noSuchTable name), db)
  | some t => (.ok (.rows (t.select f)), db)

/-- Set a declared column of rows. -/
def update (db : Database) (name column value : String) (f : Filter) : Step :=
  match db.table? name with
  | none => (.error (.noSuchTable name), db)
  | some t =>
    if !t.hasColumn column then (.error (.noSuchColumn name column), db)
    else
      match t.update column value f with
      | (count, t) => (.ok (.updated name count), db.replace t)

/-- Remove rows. -/
def delete (db : Database) (name : String) (f : Filter) : Step :=
  match db.table? name with
  | none => (.error (.noSuchTable name), db)
  | some t =>
    match t.delete f with
    | (count, t) => (.ok (.deleted name count), db.replace t)

/-- Apply a statement. -/
def apply (db : Database) : Statement → Step
  | .create table columns => db.create table columns
  | .insert table values => db.insert table values
  | .select table f => db.select table f
  | .update table column value f => db.update table column value f
  | .delete table f => db.delete table f

/-- Read a statement and apply it. -/
def execute (db : Database) (text : String) : Step :=
  match Statement.ofText text with
  | .error fault => (.error fault, db)
  | .ok statement => db.apply statement

/-- The text of an outcome or a fault. -/
def report : Except Fault Outcome → String
  | .ok outcome => outcome.text
  | .error fault => "ERROR: " ++ fault.message

/-- Execute a statement and report in words. -/
def run (db : Database) (text : String) : String × Database :=
  match db.execute text with
  | (result, db) => (report result, db)

/-- Execute statements one after another until one fails. -/
def executeAll (db : Database) : List String → Except Fault Unit × Database
  | [] => (.ok (), db)
  | text :: texts =>
    match db.execute text with
    | (.error fault, db) => (.error fault, db)
    | (.ok _, db) => executeAll db texts

end Database

end TableEngine
