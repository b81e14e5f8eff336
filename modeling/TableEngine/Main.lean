import TableEngine.CommandLine.Session

/-!
# The program

Reads arguments, environment and standard input, and prints what `TableEngine.CommandLine`
answers. A session is answered line by line, as it is typed.

The theorems of `TableEngine.Proofs` are about the layers below: texts and words, statements,
filters, stores, tables, databases, the acceptance check and the workload. The arguments
(`TableEngine.CommandLine.Arguments`) and the erasure of clusters (`TableEngine.Text.Erasure`,
`TableEngine.Text.Cluster`) restate conventions of option readers and line editors, and are not
among them. The ChaCha stream is one generator of the workload, whose theorems hold for every
generator; the time of a run is measured here, its memory is not.
-/

namespace TableEngine.CommandLine

/-- Milliseconds as seconds with three decimals. -/
def secondsText (milliseconds : Nat) : String :=
  let rest := toString (milliseconds % 1000)
  toString (milliseconds / 1000) ++ "." ++
    String.ofList (List.replicate (3 - rest.length) '0') ++ rest

/-- Compute a value and print it, with the time that it took. -/
def timed {α : Type} (compute : Unit → α) (render : String → String → α → String) : IO α := do
  let start ← IO.monoMsNow
  let value ← IO.lazyPure compute
  let stop ← IO.monoMsNow
  IO.print (render (secondsText (stop - start)) "not measured" value)
  (← IO.getStdout).flush
  return value

def renderPieces (seconds memory : String) (pieces : List Piece) : String :=
  String.join (pieces.map (Piece.render seconds memory))

/-- Answer the lines of standard input until it ends. -/
partial def talk (db : Database) : IO UInt32 := do
  let line ← (← IO.getStdin).getLine
  if line.isEmpty then return 0
  let reply ← timed (fun _ => answer db line) fun seconds memory reply =>
    renderPieces seconds memory reply.1
  match reply.2 with
  | .proceed db => talk db
  | .finish exit => return exit.toUInt32

end TableEngine.CommandLine

open TableEngine.CommandLine in
/-- Run the program. -/
def main (args : List String) : IO UInt32 := do
  let env : Environment := ⟨← IO.getEnv storeVariable, ← IO.getEnv keyColumnVariable⟩
  match Invocation.ofArguments env args with
  | .ok ⟨settings, .repl⟩ =>
    IO.print greeting
    talk (.empty settings)
  | _ =>
    let response ← timed (fun _ => respond env args "") fun seconds memory response =>
      response.render seconds memory
    return response.exit.toUInt32
