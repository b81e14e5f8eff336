import TableEngine.Engine.Database
import TableEngine.Number.Numeral
import TableEngine.Workload.Run

/-!
# Arguments

The arguments of the program select a mode, its settings and, for the workload, its size.

* A long option is `--name value` or `--name=value`, a short one `-n value`, `-nvalue` or
  `-n=value`, and short switches may share a dash. A following argument that starts with a dash
  is no value, unless it is the dash alone.
* `--store`, `--key-column` and `--verbose` may stand before the mode and after it; what stands
  after it counts. On neither side may an option be repeated.
* Without the option, the environment gives the store and the key column. A store named there
  has to be valid wherever the option is absent, before the mode and after it.

`Invocation.ofArguments` reads all of this. Arguments are read from left to right, and the
first request for the version or for help, or the first mistake, ends the reading.

The spelling of options is that of a general reader of options, restated here so that the program
runs. No theorem is about it : what is proved begins with the database and the statements that an
invocation comes down to.
-/

namespace TableEngine.CommandLine

/-! ## Options -/

/-- Where an option stands: before the mode or after it. -/
inductive Scope
  | top
  | repl
  | evaluate
  | custom
  deriving DecidableEq, Repr

/-- The scope after the name of a mode. -/
def Scope.ofName? (word : String) : Option Scope :=
  match word with
  | "repl" => some repl
  | "evaluate" => some evaluate
  | "custom" => some custom
  | _ => none

/-- The options of the program. -/
inductive Flag
  | store
  | keyColumn
  | verbose
  | version
  | help
  | queries
  | seed
  deriving DecidableEq, Repr

namespace Flag

def all : List Flag := [store, keyColumn, verbose, version, help, queries, seed]

def long : Flag → String
  | store => "store"
  | keyColumn => "key-column"
  | verbose => "verbose"
  | version => "version"
  | help => "help"
  | queries => "queries"
  | seed => "seed"

def short? : Flag → Option Char
  | store => some 's'
  | keyColumn => some 'k'
  | verbose => some 'v'
  | version => some 'V'
  | help => some 'h'
  | queries => some 'q'
  | seed => none

def takesValue : Flag → Bool
  | store | keyColumn | queries | seed => true
  | verbose | version | help => false

/-- The option is understood in the scope. -/
def allowed (scope : Scope) : Flag → Bool
  | version => scope = .top
  | queries | seed => scope = .evaluate
  | _ => true

/-- The option of a long name. -/
def ofLong? (scope : Scope) (name : String) : Option Flag :=
  all.find? fun f => f.allowed scope && f.long == name

/-- The option of a letter. -/
def ofShort? (scope : Scope) (letter : Char) : Option Flag :=
  all.find? fun f => f.allowed scope && f.short? == some letter

end Flag

/-! ## Reading one scope -/

/-- Why the reading of the arguments ends early. -/
inductive Stop
  /-- A mistake in the arguments. -/
  | usage
  | version
  | help
  deriving DecidableEq, Repr

/-- What the arguments of one scope have said so far. -/
structure Given where
  store : Option Strategy
  keyColumn : Option String
  verbose : Bool
  queries : Option Nat
  seed : Option Nat
  deriving DecidableEq, Repr

/-- Nothing said. -/
def Given.nothing : Given := ⟨none, none, false, none, none⟩

/-- A number of 64 bits: digits with an optional plus sign. -/
def number? (value : String) : Option Nat :=
  let digits := match value.toList with
    | '+' :: cs => cs
    | cs => cs
  (Numeral.natural? digits).filter fun n => n < UInt64.size

/-- Read a value that must be there and that is given for the first time. -/
def once {α : Type} (earlier value : Option α) : Except Stop α :=
  match earlier, value with
  | none, some x => .ok x
  | _, _ => .error .usage

namespace Given

/-- Take an option with its value. -/
def assign (g : Given) (flag : Flag) (value : String) : Except Stop Given :=
  match flag with
  | .store => do return { g with store := some (← once g.store (Strategy.ofName? value)) }
  | .keyColumn => do return { g with keyColumn := some (← once g.keyColumn (some value)) }
  | .queries => do return { g with queries := some (← once g.queries (number? value)) }
  | .seed => do return { g with seed := some (← once g.seed (number? value)) }
  | .verbose | .version | .help => .error .usage

/-- Take an option without a value. -/
def switch (g : Given) (flag : Flag) : Except Stop Given :=
  match flag with
  | .verbose => if g.verbose then .error .usage else .ok { g with verbose := true }
  | .version => .error .version
  | .help => .error .help
  | .store | .keyColumn | .queries | .seed => .error .usage

/-- Take the letters after a dash. A letter whose option needs a value takes the rest of the
letters as its value; if there is no rest, it is left to be given its value. -/
def cluster (scope : Scope) (g : Given) : List Char → Except Stop (Given × Option Flag)
  | [] => .ok (g, none)
  | letter :: rest =>
    match Flag.ofShort? scope letter with
    | none => .error .usage
    | some flag =>
      if flag.takesValue then
        match rest with
        | [] => .ok (g, some flag)
        | '=' :: value => do return (← g.assign flag (String.ofList value), none)
        | value => do return (← g.assign flag (String.ofList value), none)
      else do cluster scope (← g.switch flag) rest

end Given

/-- An argument by its form. -/
inductive Argument
  /-- Two dashes alone: no option follows. -/
  | escape
  | long (name : String) (value : Option String)
  | short (letters : List Char)
  | word (text : String)
  deriving DecidableEq, Repr

namespace Argument

/-- The form of an argument. -/
def ofText (text : String) : Argument :=
  match text.toList with
  | ['-', '-'] => escape
  | '-' :: '-' :: cs =>
    let name := String.ofList (cs.takeWhile (· != '='))
    match cs.dropWhile (· != '=') with
    | [] => long name none
    | _ :: value => long name (some (String.ofList value))
  | '-' :: c :: cs => short (c :: cs)
  | _ => word text

/-- The argument can be the value of the option before it. -/
def isValue (text : String) : Bool :=
  match ofText text with
  | word _ => true
  | _ => false

end Argument

/-- What the word `help` in the place of a mode asks for, with the arguments after it: help on
the program, or on the one mode that they name. -/
def helpOn : List String → Stop
  | [] => .help
  | [word] => if word == "help" || (Scope.ofName? word).isSome then .help else .usage
  | _ => .usage

/-- Read the arguments of a scope. The top scope ends at the name of a mode; the answer then
holds the scope of the mode and its arguments. -/
def readScope (scope : Scope) (g : Given) :
    List String → Except Stop (Given × Option (Scope × List String))
  | [] => .ok (g, none)
  | arg :: rest =>
    match Argument.ofText arg with
    | .escape => if rest.isEmpty then .ok (g, none) else .error .usage
    | .word word =>
      match scope, Scope.ofName? word with
      | .top, some mode => .ok (g, some (mode, rest))
      | .top, none => .error (if word == "help" then helpOn rest else .usage)
      | _, _ => .error .usage
    | .long name value =>
      match Flag.ofLong? scope name, value, rest with
      | none, _, _ => .error .usage
      | some flag, some value, rest =>
        match g.assign flag value with
        | .error stop => .error stop
        | .ok g => readScope scope g rest
      | some flag, none, [] =>
        match g.switch flag with
        | .error stop => .error stop
        | .ok g => .ok (g, none)
      | some flag, none, next :: rest =>
        if flag.takesValue then
          if Argument.isValue next then
            match g.assign flag next with
            | .error stop => .error stop
            | .ok g => readScope scope g rest
          else .error .usage
        else
          match g.switch flag with
          | .error stop => .error stop
          | .ok g => readScope scope g (next :: rest)
    | .short letters =>
      match g.cluster scope letters, rest with
      | .error stop, _ => .error stop
      | .ok (g, none), rest => readScope scope g rest
      | .ok (_, some _), [] => .error .usage
      | .ok (g, some flag), next :: rest =>
        if Argument.isValue next then
          match g.assign flag next with
          | .error stop => .error stop
          | .ok g => readScope scope g rest
        else .error .usage

/-! ## Invocations -/

/-- The variables of the environment that the program reads. -/
structure Environment where
  store : Option String
  keyColumn : Option String
  deriving DecidableEq, Repr

def storeVariable : String := "PROBEDB_STORE"

def keyColumnVariable : String := "PROBEDB_KEY_COLUMN"

/-- What the program is to do. -/
inductive Mode
  | repl
  | evaluate (queries : Nat) (seed : UInt64)
  | custom
  deriving DecidableEq, Repr

/-- A mode with the settings of its database. -/
structure Invocation where
  settings : Settings
  mode : Mode
  deriving DecidableEq, Repr

/-- The store that the environment names, which has to be valid where it is looked at. -/
def Environment.strategy (env : Environment) (g : Given) : Except Stop (Option Strategy) :=
  match g.store, env.store with
  | none, some name =>
    match Strategy.ofName? name with
    | some s => .ok (some s)
    | none => .error .usage
  | _, _ => .ok none

/-- The mode of a scope. -/
def Scope.mode (scope : Scope) (g : Given) : Mode :=
  match scope with
  | evaluate =>
    .evaluate (g.queries.getD Workload.Plan.standard.queries)
      ((g.seed.map Nat.toUInt64).getD Workload.Plan.standard.seed)
  | custom => .custom
  | repl | top => .repl

/-- The invocation of a mode, from what was said after it and before it. -/
def Invocation.ofGiven (env : Environment) (scope : Scope) (inner outer : Given) :
    Except Stop Invocation := do
  let innerStrategy ← env.strategy inner
  let outerStrategy ← env.strategy outer
  let named := inner.store <|> outer.store <|> innerStrategy <|> outerStrategy
  let column := inner.keyColumn <|> outer.keyColumn <|> env.keyColumn
  let settings : Settings :=
    ⟨named.getD Settings.standard.strategy, column.getD Settings.standard.keyColumn⟩
  return ⟨settings, scope.mode inner⟩

/-- Read all arguments. -/
def Invocation.ofArguments (env : Environment) (args : List String) : Except Stop Invocation := do
  match ← readScope .top .nothing args with
  | (outer, none) => Invocation.ofGiven env .top outer outer
  | (outer, some (scope, args)) =>
    let (inner, _) ← readScope scope .nothing args
    Invocation.ofGiven env scope inner outer

end TableEngine.CommandLine
