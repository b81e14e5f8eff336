import TableEngine.Number.Binary64

/-!
# Decimal numerals

The two forms of number that a text can have.

* An integer is an optional sign and one or more ASCII digits (`Numeral.integer?`).
* A decimal numeral (`Numeral.ofText?`) is an optional sign, digits with an optional point
  before, among or after them, and an optional exponent : `e` or `E`, an optional sign and
  one or more digits. At least one digit stands outside the exponent.

`Numeral.toBinary64` rounds the exact value of a numeral once.
-/

namespace TableEngine

namespace Numeral

/-- The sign at the front of a text, and the rest. -/
def splitSign : List Char → Bool × List Char
  | '-' :: cs => (true, cs)
  | '+' :: cs => (false, cs)
  | cs => (false, cs)

/-- The number that digits write. -/
def ofDigits (cs : List Char) : Nat := cs.foldl (fun n c => 10 * n + (c.toNat - '0'.toNat)) 0

/-- A natural with a sign. -/
def withSign (negative : Bool) (n : Nat) : Int := if negative then -n else n

/-- One or more digits and nothing else. -/
def natural? (cs : List Char) : Option Nat :=
  if !cs.isEmpty && cs.all Char.isDigit then some (ofDigits cs) else none

/-- An optional sign and one or more digits. -/
def integer? (cs : List Char) : Option Int :=
  match splitSign cs with
  | (negative, cs) => (natural? cs).map (withSign negative)

end Numeral

/-- A decimal numeral by its parts. -/
structure Numeral where
  negative : Bool
  /-- The digits before the point. -/
  whole : List Char
  /-- The digits after the point. -/
  fraction : List Char
  exponent : Int
  deriving DecidableEq, Repr

namespace Numeral

/-- The digits after a point, if there is one, and the rest. -/
def splitFraction : List Char → List Char × List Char
  | '.' :: cs => (cs.takeWhile Char.isDigit, cs.dropWhile Char.isDigit)
  | cs => ([], cs)

/-- The exponent that ends a numeral; 0 if there is none. -/
def exponent? : List Char → Option Int
  | [] => some 0
  | 'e' :: cs => integer? cs
  | 'E' :: cs => integer? cs
  | _ => none

/-- The parts of a numeral without its sign. -/
def ofUnsigned? (negative : Bool) (cs : List Char) : Option Numeral :=
  let whole := cs.takeWhile Char.isDigit
  match splitFraction (cs.dropWhile Char.isDigit) with
  | (fraction, rest) =>
    if whole.isEmpty && fraction.isEmpty then none
    else (exponent? rest).map fun e => ⟨negative, whole, fraction, e⟩

/-- The parts of a text that is a decimal numeral. -/
def ofText? (cs : List Char) : Option Numeral :=
  match splitSign cs with
  | (negative, cs) => ofUnsigned? negative cs

/-- A power of ten beyond which every numeral is infinite or zero. -/
def exponentLimit : Int := 400

/-- The number nearest to the value of the numeral. A numeral with a positive digit is at
least `10 ^ power` and less than `10 ^ (power + digits)`, which settles the extreme cases. -/
def toBinary64 (x : Numeral) : Binary64 :=
  let digits := ofDigits (x.whole ++ x.fraction)
  let power := x.exponent - x.fraction.length
  if digits == 0 then .zero x.negative
  else if power > exponentLimit then .infinity x.negative
  else if power + (x.whole.length + x.fraction.length : Nat) < -exponentLimit then
    .zero x.negative
  else if power ≥ 0 then .ofRatio x.negative (digits * Nat.pow 10 power.toNat) 1
  else .ofRatio x.negative digits (Nat.pow 10 (-power).toNat)

end Numeral

end TableEngine
