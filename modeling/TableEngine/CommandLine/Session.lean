import TableEngine.Acceptance.Student
import TableEngine.CommandLine.Arguments
import TableEngine.Text.Erasure

/-!
# Sessions

What the program prints in each mode, and the exit code it ends with. A session reads statements
line by line; `Session.answer` is its answer to one line, and `respond` the answer of the program
to its arguments and its whole input.
-/

namespace TableEngine.CommandLine

/-- A part of the output. A report is kept apart because it shows the time that a run took. -/
inductive Piece
  | text (s : String)
  | report (r : Workload.Report)
  deriving DecidableEq, Repr

/-- The text of a part of the output. -/
def Piece.render (seconds memory : String) : Piece → String
  | text s => s
  | report r => r.text seconds memory ++ "\n"

/-- Output, and an exit code. -/
structure Response where
  output : List Piece
  exit : Nat
  deriving DecidableEq, Repr

def Response.render (seconds memory : String) (r : Response) : String :=
  String.join (r.output.map (Piece.render seconds memory))

/-! ## Modes that end by themselves -/

/-- Run the workload. -/
def evaluate (db : Database) (queries : Nat) (seed : UInt64) : Response :=
  match (Workload.run db { Workload.Plan.standard with queries := queries, seed := seed }).1 with
  | .ok report => ⟨[.report report], 0⟩
  | .error _ => ⟨[], 1⟩

/-- The lines on one check. -/
def verdictText (v : Acceptance.Verdict) : String :=
  "Executing query: " ++ v.check.query ++ "\n" ++
    (if v.passed then "Test PASSED\n"
     else
      "Test FAILED\nExpected: " ++ Text.quotedList v.check.expected ++ "\nActual: " ++
        Text.quotedList v.actual ++ "\n") ++
    "\n"

/-- Run the acceptance checks. -/
def custom (db : Database) : Response :=
  let opening : Piece := .text "Setting up database...\n"
  match (Acceptance.run db).1 with
  | .error _ => ⟨[opening], 1⟩
  | .ok verdicts =>
    let passed := verdicts.countP Acceptance.Verdict.passed
    let summary := toString passed ++ " of " ++ toString verdicts.length ++ " checks passed.\n"
    ⟨opening :: .text "Running custom test cases...\n" ::
        verdicts.map (fun v => .text (verdictText v)) ++ [.text summary],
      if passed = verdicts.length then 0 else 1⟩

/-! ## Statements line by line -/

def versionLine : String := "probedb 0.1.0\n"

/-- What a session prints first. -/
def greeting : String :=
  versionLine ++ "Enter SQL statements, 'evaluate', 'custom' or 'exit'.\n"

/-- How a session goes on after a line. -/
inductive Next
  | proceed (db : Database)
  | finish (exit : Nat)

/-- The answer to one line. -/
def answer (db : Database) (line : String) : List Piece × Next :=
  let text := String.ofList (Text.trim (Text.erased line.toList))
  if text.isEmpty then ([], .proceed db)
  else if Text.sameWord text "exit" then ([], .finish 0)
  else if Text.sameWord text "evaluate" then
    let response := evaluate db Workload.Plan.standard.queries Workload.Plan.standard.seed
    (response.output, .finish response.exit)
  else if Text.sameWord text "custom" then
    let response := custom db
    (response.output, .finish response.exit)
  else
    match db.run text with
    | (shown, db) => ([.text (shown ++ "\n")], .proceed db)

/-- The answers to all lines. -/
def converse (db : Database) (output : List Piece) : List String → Response
  | [] => ⟨output.reverse, 0⟩
  | line :: rest =>
    match answer db line with
    | (pieces, .proceed db) => converse db (pieces.reverse ++ output) rest
    | (pieces, .finish exit) => ⟨output.reverse ++ pieces, exit⟩

/-! ## The program -/

/-- A summary of the arguments. -/
def usage : String :=
  "Usage: probedb [--store STORE] [--key-column COLUMN] [--verbose] [MODE]\n\n" ++
    "Modes:\n  repl\n  evaluate [--queries N] [--seed N]\n  custom\n  help [MODE]\n"

/-- The response to arguments that name no mode to run. -/
def Stop.response : Stop → Response
  | usage => ⟨[], 2⟩
  | version => ⟨[.text versionLine], 0⟩
  | help => ⟨[.text CommandLine.usage], 0⟩

/-- The response to the arguments and the input. -/
def respond (env : Environment) (args : List String) (input : String) : Response :=
  match Invocation.ofArguments env args with
  | .error stop => stop.response
  | .ok invocation =>
    let db := Database.empty invocation.settings
    match invocation.mode with
    | .evaluate queries seed => evaluate db queries seed
    | .custom => custom db
    | .repl => converse db [.text greeting] (Text.lines input)

end TableEngine.CommandLine
