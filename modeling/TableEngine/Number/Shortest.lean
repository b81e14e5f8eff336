import TableEngine.Number.Binary64

/-!
# Shortest decimal text

A finite number is printed with the fewest decimal digits that read back as it, and of those
the nearest to it; a tie goes up. For each count of digits it is enough to look at the two
neighbours of the number on the grid of decimals with so many digits. The digits are written
positionally, without an exponent and without a point when nothing follows it.
-/

namespace TableEngine.Binary64

/-- `digits * 10 ^ power`. -/
structure Decimal where
  digits : Nat
  power : Int
  deriving DecidableEq, Repr

/-- The quotients `low ≤ value ≤ high` over one denominator of a positive finite number: every
real between `low` and `high` reads back as it, the ends only if `closed`. -/
structure Cell where
  low : Nat
  value : Nat
  high : Nat
  den : Nat
  closed : Bool

/-- The reals that round to a positive finite number. Below a power of two the neighbours
are half as far apart. -/
def cell (x : Binary64) : Cell :=
  let (m, e) := x.significand
  let below := if m == 1 <<< 52 && e > leastExponent then 1 else 2
  let scale := if e ≥ 2 then 1 <<< (e - 2).toNat else 1
  let den := if e ≥ 2 then 1 else 1 <<< (2 - e).toNat
  ⟨(4 * m - below) * scale, 4 * m * scale, (4 * m + 2) * scale, den, m % 2 == 0⟩

/-- A quotient of naturals in units of `10 ^ power`. -/
def inUnits (num den : Nat) (power : Int) : Nat × Nat :=
  if power ≥ 0 then (num, den * Nat.pow 10 power.toNat)
  else (num * Nat.pow 10 (-power).toNat, den)

/-- `n * 10 ^ power` reads back as the number of the cell. -/
def Cell.holds (c : Cell) (n : Nat) (power : Int) : Bool :=
  let (low, d) := inUnits c.low c.den power
  let (high, _) := inUnits c.high c.den power
  if c.closed then low ≤ n * d && n * d ≤ high else low < n * d && n * d < high

/-- The first power, from `power` on, whose unit is more than a quotient. -/
def firstUnitAbove (num den : Nat) (power : Int) : Nat → Int
  | 0 => power
  | fuel + 1 =>
    let (n, d) := inUnits num den power
    if n < d then power else firstUnitAbove num den (power + 1) fuel

/-- The number of decimal digits before the point of a quotient that is at least one, and
otherwise 0 or less by the number of zeros after the point. The estimate from the binary
logarithms is never too large, and too small by less than five. -/
def leadingPower (num den : Nat) : Int :=
  firstUnitAbove num den (((num.log2 : Int) - den.log2) * 30103 / 100000 - 1) 5

/-- The better neighbour of the number on the grid of multiples of `10 ^ power`. -/
def Cell.onGrid? (c : Cell) (power : Int) : Option Nat :=
  let (n, d) := inUnits c.value c.den power
  let low := n / d
  match c.holds low power, c.holds (low + 1) power with
  | false, false => none
  | true, false => some low
  | false, true => some (low + 1)
  | true, true => if 2 * (n % d) < d then some low else some (low + 1)

/-- The first grid, from `count` digits on, with a decimal that reads back. -/
def Cell.shortestFrom (c : Cell) (lead : Int) (count : Nat) : Nat → Decimal
  | 0 => ⟨0, 0⟩
  | fuel + 1 =>
    let power := lead - count
    match c.onGrid? power with
    | some n => ⟨n, power⟩
    | none => c.shortestFrom lead (count + 1) fuel

/-- The shortest decimal that reads back as a finite number's absolute value; 17 digits are
always enough. -/
def shortest (x : Binary64) : Decimal :=
  if x.magnitude == 0 then ⟨0, 0⟩
  else
    let c := x.cell
    c.shortestFrom (leadingPower c.value c.den) 1 17

/-- The digits with a point before the last `places` of them, without zeros at the end. -/
def pointed (digits : List Char) (places : Nat) : List Char :=
  let padded := List.replicate (places + 1 - digits.length) '0' ++ digits
  let split := padded.length - places
  match (padded.drop split).reverse.dropWhile (· == '0') with
  | [] => padded.take split
  | fraction => padded.take split ++ '.' :: fraction.reverse

/-- A decimal in positional notation. -/
def Decimal.text (d : Decimal) : List Char :=
  let digits := Nat.toDigits 10 d.digits
  if d.power ≥ 0 then
    if d.digits == 0 then digits else digits ++ List.replicate d.power.toNat '0'
  else pointed digits (-d.power).toNat

/-- The shortest positional text of a finite number. -/
def text (x : Binary64) : String :=
  String.ofList ((if x.negative then ['-'] else []) ++ x.shortest.text)

end TableEngine.Binary64
