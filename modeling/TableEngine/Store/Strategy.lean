import TableEngine.Store.Probe
import TableEngine.Text.Ascii

/-!
# Strategies

A table keeps its rows by one of four strategies: chained buckets, or a slot array under one
of the three probe sequences. Each has a name and a second, longer or shorter, spelling.
-/

namespace TableEngine

/-- How a store resolves collisions. -/
inductive Strategy
  | chaining
  | probing (p : Probe)
  deriving DecidableEq, Repr

namespace Strategy

def all : List Strategy :=
  [chaining, probing .linear, probing .quadratic, probing .double]

/-- The name a strategy is shown by. -/
def name : Strategy → String
  | chaining => "chaining"
  | probing .linear => "linear"
  | probing .quadratic => "quadratic"
  | probing .double => "double"

/-- The other spelling that is understood. -/
def alternative : Strategy → String
  | chaining => "chain"
  | probing .linear => "linear-probe"
  | probing .quadratic => "quadratic-probe"
  | probing .double => "double-hash"

/-- The strategy of a name, in any case. -/
def ofName? (word : String) : Option Strategy :=
  all.find? fun s => Text.sameWord word s.name || Text.sameWord word s.alternative

instance : Inhabited Strategy := ⟨probing .linear⟩

end Strategy

end TableEngine
