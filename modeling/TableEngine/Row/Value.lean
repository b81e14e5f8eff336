import TableEngine.Number.Numeral

/-!
# Values

A row keeps every value as text. Whether a text is a number is decided when it is compared:
an integer if it writes one of 64 bits, otherwise a decimal numeral, otherwise text. Words
such as `nan` and `inf` are text.

Two integers compare as integers, two numbers otherwise as binary64 numbers, and anything
else as text, which has no order: only equality and its negation can hold of it.
-/

namespace TableEngine

/-- What a text stands for. -/
inductive Value
  | integer (n : Int)
  | decimal (x : Binary64)
  | text (s : String)
  deriving DecidableEq

/-- An integer of 64 bits. -/
def isWord (n : Int) : Bool := Int64.minValue.toInt ≤ n && n ≤ Int64.maxValue.toInt

namespace Value

/-- Classify a text. -/
def ofText (raw : String) : Value :=
  match (Numeral.integer? raw.toList).filter isWord with
  | some n => integer n
  | none =>
    match Numeral.ofText? raw.toList with
    | some x => decimal x.toBinary64
    | none => text raw

def integer? : Value → Option Int
  | integer n => some n
  | _ => none

/-- The binary64 number of a numeric value; integers are rounded. -/
def number? : Value → Option Binary64
  | integer n => some (.ofInt n)
  | decimal x => some x
  | text _ => none

end Value

/-- The six ways to compare. -/
inductive Comparison
  | equal
  | unequal
  | less
  | greater
  | atMost
  | atLeast
  deriving DecidableEq, Repr

namespace Comparison

def all : List Comparison := [equal, unequal, less, greater, atMost, atLeast]

/-- The operator a comparison is shown by. -/
def symbol : Comparison → String
  | equal => "="
  | unequal => "!="
  | less => "<"
  | greater => ">"
  | atMost => "<="
  | atLeast => ">="

/-- The comparison of an operator; `<>` is a second spelling of `!=`. -/
def ofSymbol? (word : String) : Option Comparison :=
  match word with
  | "=" => some equal
  | "!=" => some unequal
  | "<>" => some unequal
  | "<" => some less
  | ">" => some greater
  | "<=" => some atMost
  | ">=" => some atLeast
  | _ => none

/-- The comparison of integers. -/
def holds (c : Comparison) (a b : Int) : Bool :=
  match c with
  | equal => a == b
  | unequal => a != b
  | less => a < b
  | greater => b < a
  | atMost => a ≤ b
  | atLeast => b ≤ a

/-- The comparison of texts. -/
def holdsOfText (c : Comparison) (s t : String) : Bool :=
  match c with
  | equal => s == t
  | unequal => s != t
  | _ => false

/-- The comparison of two stored texts by what they stand for. -/
def compare (c : Comparison) (left right : String) : Bool :=
  let l := Value.ofText left
  let r := Value.ofText right
  match l.integer?, r.integer? with
  | some a, some b => c.holds a b
  | _, _ =>
    match l.number?, r.number? with
    | some x, some y => c.holds x.order y.order
    | _, _ => c.holdsOfText left right

end Comparison

end TableEngine
