import TableEngine.Sampling.ChaCha
import TableEngine.Sampling.Generator

/-!
# Uniform draws from ChaCha

`chacha` is the generator over the ChaCha stream. A number below `n` is the high half of the
product of a random word and `n`. A product whose low half is too large is drawn again, which
makes all numbers equally likely. There is no bound on how often that happens (`upTo`).
-/

namespace TableEngine.Sampling

/-- A word of 32 bits. -/
def word32 : StateM Stream Nat := fun s =>
  match s.next with
  | (word, s) => (word.toNat, s)

/-- A word of 64 bits, its low half drawn first. -/
def word64 : StateM Stream Nat := do
  let low ← word32
  let high ← word32
  return low + high <<< 32

/-- A number up to `last`, from random words of `width` bits. -/
def upTo (word : StateM Stream Nat) (width last : Nat) : StateM Stream (Fin (last + 1)) :=
  repeatM (fun () => do
    let product := (← word) * (last + 1)
    if product % (1 <<< width) < (last + 1) <<< (width - 1 - (last + 1).log2) then
      -- the remainder is the quotient itself, as a word has no more than `width` bits
      return .inr ⟨(product >>> width) % (last + 1), Nat.mod_lt _ last.succ_pos⟩
    else
      return .inl ()) ()

/-- One of the `n` numbers from `low` on. From an empty range there is none to draw, and the answer
is `low`. -/
def numberFrom (word : StateM Stream Nat) (width low n : Nat) : StateM Stream Nat :=
  match n with
  | 0 => return low
  | last + 1 => do return low + (← upTo word width last).val

/-- The generator over the ChaCha stream. Positions and coins take words of 64 bits, numbers of a
range words of 32 bits, and fractions the 53 upper bits of a word of 64. -/
def chacha : Generator where
  State := Stream
  ofSeed := .ofSeed
  position := numberFrom word64 64 0
  between low high := numberFrom word32 32 low (high - low)
  through low high := numberFrom word32 32 low (high + 1 - low)
  coin := do return (← word64) < 1 <<< 63
  fraction := do return .ofRatio false ((← word64) >>> 11) (1 <<< 53)

end TableEngine.Sampling
