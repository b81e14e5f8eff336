import TableEngine.Row.Basic
import TableEngine.Row.Value
import TableEngine.Text.Ascii

/-!
# Filters

A filter is a flat list of comparisons and connectives without grouping. Every comparison is
decided on its own and the results are combined from left to right, so `a OR b AND c` means
`(a OR b) AND c`. A comparison is joined to what stands before it by the last connective seen,
`AND` before any; the first comparison is joined to nothing, and a filter without comparisons
accepts every row.
-/

namespace TableEngine

/-- A logical connective. -/
inductive Connective
  | and
  | or
  deriving DecidableEq, Repr

namespace Connective

/-- The word a connective is shown by. -/
def word : Connective → String
  | and => "AND"
  | or => "OR"

/-- The connective of a word, in any case. -/
def ofWord? (w : String) : Option Connective :=
  if Text.sameWord w "AND" then some and
  else if Text.sameWord w "OR" then some or
  else none

def combine : Connective → Bool → Bool → Bool
  | and, a, b => a && b
  | or, a, b => a || b

end Connective

/-- A comparison of a column with a literal. -/
structure Condition where
  column : String
  comparison : Comparison
  /-- Absent if the text of the filter ended too early. -/
  literal : Option String
  deriving DecidableEq, Repr

/-- The condition holds of the row. Without the column, or without a literal, it does not. -/
def Condition.holds (c : Condition) (row : Row) : Bool :=
  match row.get? c.column, c.literal with
  | some value, some literal => c.comparison.compare value literal
  | _, _ => false

/-- One entry of a filter. -/
inductive Term
  | join (c : Connective)
  | test (c : Condition)
  deriving DecidableEq, Repr

/-- Comparisons and connectives in the order in which they were written. -/
abbrev Filter := List Term

namespace Filter

/-- Every comparison with the last connective before it, `latest` at the start. -/
def joined (latest : Connective) : Filter → List (Connective × Condition)
  | [] => []
  | .join c :: rest => joined c rest
  | .test c :: rest => (latest, c) :: joined latest rest

/-- The filter accepts the row. -/
def accepts (f : Filter) (row : Row) : Bool :=
  match joined .and f with
  | [] => true
  | (_, first) :: rest =>
    rest.foldl (fun result (join, c) => join.combine result (c.holds row)) (first.holds row)

end Filter

end TableEngine
