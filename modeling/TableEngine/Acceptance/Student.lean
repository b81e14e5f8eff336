import TableEngine.Acceptance.Check
import TableEngine.Engine.Database

/-!
# The student table

An acceptance run over a table of five students: statements that fill the table, and eleven
checks in an order in which later ones depend on the writes of earlier ones.
-/

namespace TableEngine.Acceptance

/-- The statements that create and fill the table. -/
def setUp : List String :=
  ["CREATE TABLE student (id, name, age)",
   "INSERT INTO student VALUES (1, 'Jon', 22)",
   "INSERT INTO student VALUES (2, 'Mary', 25)",
   "INSERT INTO student VALUES (3, 'Jane', 23)",
   "INSERT INTO student VALUES (4, 'Tom', 28)",
   "INSERT INTO student VALUES (5, 'Ali', 22)"]

/-- The checks in order. -/
def checks : List Check :=
  [⟨"SELECT * FROM student",
     ["id name age", "1 'Jon' 22", "2 'Mary' 25", "3 'Jane' 23", "4 'Tom' 28", "5 'Ali' 22"]⟩,
   ⟨"SELECT * FROM student WHERE id >= 3 AND age = 22", ["id name age", "5 'Ali' 22"]⟩,
   ⟨"INSERT INTO student VALUES (6, 'Sara', 24)", ["Row inserted into student"]⟩,
   ⟨"SELECT * FROM student WHERE id = 6", ["id name age", "6 'Sara' 24"]⟩,
   ⟨"UPDATE student SET age = 26 WHERE id = 2", ["Table student updated. 1 row affected."]⟩,
   ⟨"SELECT * FROM student WHERE id = 2", ["id name age", "2 'Mary' 26"]⟩,
   ⟨"DELETE FROM student WHERE id = 4", ["Rows deleted from student. 1 row affected."]⟩,
   ⟨"SELECT * FROM student WHERE id = 4", ["id name age"]⟩,
   ⟨"SELECT * FROM student WHERE age >= 23",
     ["id name age", "2 'Mary' 26", "3 'Jane' 23", "6 'Sara' 24"]⟩,
   ⟨"SELECT * FROM student WHERE id <= 3 AND age < 24",
     ["id name age", "1 'Jon' 22", "3 'Jane' 23"]⟩,
   ⟨"SELECT * FROM student WHERE id <= 3 OR age > 25",
     ["id name age", "1 'Jon' 22", "2 'Mary' 26", "3 'Jane' 23"]⟩]

/-- Run checks one after another. -/
def judge (db : Database) : List Check → List Verdict × Database
  | [] => ([], db)
  | check :: checks =>
    match db.run check.query with
    | (output, db) =>
      match judge db checks with
      | (verdicts, db) => (⟨check, Text.normalLines output⟩ :: verdicts, db)

/-- Fill the table and run every check. A failed check is a verdict, not a fault. -/
def run (db : Database) : Except Fault (List Verdict) × Database :=
  match db.executeAll setUp with
  | (.error fault, db) => (.error fault, db)
  | (.ok (), db) =>
    match judge db checks with
    | (verdicts, db) => (.ok verdicts, db)

end TableEngine.Acceptance
