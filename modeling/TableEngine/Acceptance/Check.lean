import TableEngine.Text.Lines

/-!
# Checks

A check is a statement with the lines that it has to print. Rows are listed in store order,
so only the first line has a fixed place: the other lines may come in any order, each as
often as it is expected (`sameOutput`).
-/

namespace TableEngine.Acceptance

/-- A statement and the lines it has to print, with their blanks collapsed. -/
structure Check where
  query : String
  expected : List String
  deriving DecidableEq, Repr

/-- The lines in ascending order. -/
def sorted (lines : List String) : List String := lines.mergeSort fun a b => a ≤ b

/-- The first lines agree, and the others agree up to their order. -/
def sameOutput (expected actual : List String) : Bool :=
  match expected, actual with
  | [], [] => true
  | e :: expected, a :: actual => e == a && sorted expected == sorted actual
  | _, _ => false

/-- A check with the lines that its statement printed. -/
structure Verdict where
  check : Check
  actual : List String
  deriving DecidableEq, Repr

def Verdict.passed (v : Verdict) : Bool := sameOutput v.check.expected v.actual

end TableEngine.Acceptance
