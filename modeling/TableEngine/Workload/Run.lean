import TableEngine.Engine.Database
import TableEngine.Sampling.Uniform
import TableEngine.Workload.Statements

/-!
# Running the workload

`run` creates the three tables, fills them and executes the drawn statements. It fails only if
the tables cannot be set up; faults of drawn statements are counted. `Report.text` shows how
many statements of each shape were drawn. The time and the memory that it shows are measured
outside.
-/

namespace TableEngine.Workload

open Sampling

/-- How much to run. -/
structure Plan where
  /-- The number of statements to draw. -/
  queries : Nat
  /-- The number of rows in each table at the start. -/
  prepopulate : Nat
  seed : UInt64
  deriving DecidableEq, Repr

/-- A million statements over tables of fifty rows. -/
def Plan.standard : Plan := ⟨1000000, 50, 42⟩

/-- What the statements that were drawn so far have come to. -/
structure Tally where
  /-- How many statements of each shape were drawn. -/
  drawn : Vector Nat 6
  /-- How many statements failed. -/
  failed : Nat
  deriving DecidableEq, Repr

namespace Tally

/-- Nothing drawn. -/
def zero : Tally := ⟨.replicate 6 0, 0⟩

/-- How many statements of a shape were drawn. -/
def count (t : Tally) (shape : Shape) : Nat := t.drawn[shape.index]

/-- Count a statement of a shape. -/
def draw (t : Tally) (shape : Shape) : Tally :=
  { t with drawn := t.drawn.set shape.index (t.count shape + 1) }

/-- Count a statement that fails. -/
def fail (t : Tally) : Tally := { t with failed := t.failed + 1 }

end Tally

/-- What a run has done. -/
structure Report where
  /-- How many drawn statements were executed. -/
  executed : Nat
  /-- How many of them failed. -/
  failed : Nat
  /-- How many of each shape were drawn. -/
  drawn : Vector Nat 6
  deriving DecidableEq, Repr

namespace Report

/-- How many statements of a shape were drawn. -/
def count (r : Report) (shape : Shape) : Nat := r.drawn[shape.index]

/-- Fill up with spaces to a width. -/
def padded (width : Nat) (s : String) : String :=
  s ++ String.ofList (List.replicate (width - s.length) ' ')

/-- The line of a shape. -/
def line (r : Report) (shape : Shape) : String :=
  "  " ++ padded 13 shape.label ++ toString (r.count shape)

/-- The report, with the time and the memory that the run took. -/
def text (r : Report) (seconds memory : String) : String :=
  let first := "Finished processing " ++ toString r.executed ++ " queries (" ++
    toString r.failed ++ " failed) in " ++ seconds ++ " seconds."
  "\n".intercalate (first :: Shape.all.map r.line ++ ["Memory used: " ++ memory])

end Report

/-- Draw statements and execute them. -/
def runQueries (g : Generator) (db : Database) (state : g.State) (tally : Tally) :
    Nat → Tally × Database
  | 0 => (tally, db)
  | n + 1 =>
    match (query g).run state with
    | ((shape, text), state) =>
      match db.execute text with
      | (.ok _, db) => runQueries g db state (tally.draw shape) n
      | (.error _, db) => runQueries g db state (tally.draw shape).fail n

/-- Set up the tables and run the plan, by default on the ChaCha stream of its seed. -/
def run (db : Database) (plan : Plan) (g : Generator := chacha) :
    Except Fault Report × Database :=
  match db.executeAll creations with
  | (.error fault, db) => (.error fault, db)
  | (.ok (), db) =>
    match (prepopulation g plan.prepopulate).run (g.ofSeed plan.seed) with
    | (rows, state) =>
      match db.executeAll rows with
      | (.error fault, db) => (.error fault, db)
      | (.ok (), db) =>
        match runQueries g db state .zero plan.queries with
        | (tally, db) => (.ok ⟨plan.queries, tally.failed, tally.drawn⟩, db)

end TableEngine.Workload
