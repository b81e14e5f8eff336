/-!
# Binary64 numbers

A `Binary64` is a double precision number that is not NaN: a sign, and a magnitude in
`0, …, infinityBits`, the bit pattern of the absolute value. Larger bit patterns stand for
larger absolute values, so `Binary64.order`, which negates the magnitude of a negative
number, compares two numbers as the reals they stand for (and both zeros as equal).

* `Binary64.ofRatio` is the number nearest to a quotient of naturals; a tie goes to the even
  bit pattern, and a quotient too large for the range becomes infinity.
* `Binary64.ratio` is the exact value of a finite number.
* `Binary64.add` and `Binary64.mul` round the exact sum and the exact product.
-/

namespace TableEngine

/-- The bit pattern of positive infinity. -/
def infinityBits : Nat := 0x7ff0000000000000

/-- A number of double precision, finite or infinite. -/
structure Binary64 where
  negative : Bool
  magnitude : Nat
  magnitude_le : magnitude ≤ infinityBits
  deriving DecidableEq

namespace Binary64

/-- The exponent of the last place of the subnormal numbers. -/
def leastExponent : Int := -1074

/-- `num / den` rounded to the nearest natural, ties to even. -/
def roundDiv (num den : Nat) : Nat :=
  let q := num / den
  let twice := 2 * (num % den)
  if twice > den || (twice == den && q % 2 == 1) then q + 1 else q

/-- The quotient `num / den` measured in units of `2 ^ exponent`, as a quotient. -/
def scaled (num den : Nat) (exponent : Int) : Nat × Nat :=
  if exponent ≥ 0 then (num, den <<< exponent.toNat) else (num <<< (-exponent).toNat, den)

/-- The least exponent whose units measure `num / den` below `2 ^ 53`, for positive `num`
and `den`. -/
def lastPlace (num den : Nat) : Int :=
  let low := max ((num.log2 : Int) - den.log2 - 53) leastExponent
  let (n, d) := scaled num den low
  if n / d < 1 <<< 53 then low else low + 1

/-- The bit pattern nearest to `num / den`. -/
def magnitudeOfRatio (num den : Nat) : Nat :=
  if num == 0 then 0
  else
    let exponent := lastPlace num den
    let (n, d) := scaled num den exponent
    min ((exponent - leastExponent).toNat <<< 52 + roundDiv n d) infinityBits

/-- The number nearest to `num / den`, for positive `den`, with the given sign. -/
def ofRatio (negative : Bool) (num den : Nat) : Binary64 :=
  ⟨negative, magnitudeOfRatio num den, by
    unfold magnitudeOfRatio
    split
    · exact Nat.zero_le _
    · exact Nat.min_le_right _ _⟩

def zero (negative : Bool) : Binary64 := ⟨negative, 0, Nat.zero_le _⟩

def infinity (negative : Bool) : Binary64 := ⟨negative, infinityBits, Nat.le_refl _⟩

/-- The number nearest to an integer. -/
def ofInt (n : Int) : Binary64 := ofRatio (n < 0) n.natAbs 1

/-- The place of a number in the order of the numbers. -/
def order (x : Binary64) : Int := if x.negative then -x.magnitude else x.magnitude

/-- The sign bit and the magnitude in one word. -/
def bits (x : Binary64) : UInt64 :=
  ((if x.negative then 1 <<< 63 else 0) + x.magnitude).toUInt64

/-- The absolute value of a finite number as `m * 2 ^ e`. -/
def significand (x : Binary64) : Nat × Int :=
  let field : Nat := x.magnitude >>> 52
  let fraction : Nat := x.magnitude % 1 <<< 52
  if field == 0 then (fraction, leastExponent)
  else (1 <<< 52 + fraction, Int.ofNat field - 1 + leastExponent)

/-- The value of a finite number as a quotient. -/
def ratio (x : Binary64) : Int × Nat :=
  let (m, e) := x.significand
  let signed : Int := if x.negative then -m else m
  if e ≥ 0 then (signed * (1 <<< e.toNat : Nat), 1) else (signed, 1 <<< (-e).toNat)

/-- The number nearest to the sum of two finite numbers. -/
def add (x y : Binary64) : Binary64 :=
  let (a, b) := x.ratio
  let (c, d) := y.ratio
  let sum := a * d + c * b
  ofRatio (sum < 0) sum.natAbs (b * d)

/-- The number nearest to the product of two finite numbers. -/
def mul (x y : Binary64) : Binary64 :=
  let (a, b) := x.ratio
  let (c, d) := y.ratio
  ofRatio (x.negative != y.negative) (a * c).natAbs (b * d)

end Binary64

end TableEngine
