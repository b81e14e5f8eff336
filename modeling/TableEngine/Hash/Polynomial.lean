/-!
# Polynomial hash of a text

The hash of a text is the sum of `unit i * 31 ^ i` over its UTF-16 code units, modulo
1 000 000 007. It picks the bucket of a key (`TableEngine.Store.Chains`).

`Polynomial` is the running state: the hash of what has been read, and the power of the base
for the next unit. A text may be fed in pieces. Words of 64 bits suffice, since both numbers
stay below the modulus and a unit is below 65536.
-/

namespace TableEngine.Hash

/-- The code units of a character in UTF-16: one, or a pair of surrogates. -/
def units16 (c : Char) : List UInt16 :=
  if c.toNat < 0x10000 then [c.toNat.toUInt16]
  else
    let n := c.toNat - 0x10000
    [(0xD800 + n / 0x400).toUInt16, (0xDC00 + n % 0x400).toUInt16]

/-- The state of a hash in progress. -/
structure Polynomial where
  hash : UInt64
  power : UInt64

namespace Polynomial

def base : UInt64 := 31

def modulus : UInt64 := 1000000007

/-- Nothing read yet. -/
def start : Polynomial := ⟨0, 1⟩

/-- Read one code unit. -/
def feedUnit (p : Polynomial) (unit : UInt16) : Polynomial :=
  ⟨(p.hash + unit.toUInt64 * p.power % modulus) % modulus, p.power * base % modulus⟩

/-- Read a piece of the text. -/
def feed (p : Polynomial) (piece : String) : Polynomial :=
  (piece.toList.flatMap units16).foldl feedUnit p

end Polynomial

/-- The polynomial hash of a text. -/
def polynomialHash (text : String) : UInt64 := (Polynomial.start.feed text).hash

end TableEngine.Hash
