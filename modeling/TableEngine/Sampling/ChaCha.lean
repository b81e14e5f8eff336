/-!
# The ChaCha stream

A seed of 64 bits determines an endless stream of 32-bit words: eight words derived from the
seed are the key of the ChaCha cipher with twelve rounds, and its blocks under the counters
0, 1, 2, … follow one another.

`keyOfSeed` derives the key, `block` computes one block of sixteen words and `Stream.next`
takes the next word.
-/

namespace TableEngine.Sampling

/-! ## The key -/

/-- One step of the generator that stretches a seed: the new state and an output word. -/
def stretch (state : UInt64) : UInt32 × UInt64 :=
  let state := state * 6364136223846793005 + 11634580027462260723
  let x := (((state >>> 18) ^^^ state) >>> 27).toUInt32
  let k := (state >>> 59).toUInt32
  ((x >>> k) ||| (x <<< ((32 - k) % 32)), state)

/-- As many output words as asked for. -/
def stretched (state : UInt64) : Nat → List UInt32
  | 0 => []
  | n + 1 =>
    match stretch state with
    | (word, state) => word :: stretched state n

/-- The eight words of the key. -/
def keyOfSeed (seed : UInt64) : List UInt32 := stretched seed 8

/-! ## Blocks -/

/-- The sixteen words that the rounds mix. -/
abbrev Block := Vector UInt32 16

/-- Rotate a word to the left by `k` places, `0 < k < 32`. -/
def rotateLeft (x k : UInt32) : UInt32 := (x <<< k) ||| (x >>> (32 - k))

/-- Mix four words of the block. -/
def quarter (s : Block) (a b c d : Fin 16) : Block :=
  let s := s.set a (s[a] + s[b])
  let s := s.set d (rotateLeft (s[d] ^^^ s[a]) 16)
  let s := s.set c (s[c] + s[d])
  let s := s.set b (rotateLeft (s[b] ^^^ s[c]) 12)
  let s := s.set a (s[a] + s[b])
  let s := s.set d (rotateLeft (s[d] ^^^ s[a]) 8)
  let s := s.set c (s[c] + s[d])
  s.set b (rotateLeft (s[b] ^^^ s[c]) 7)

/-- A round over the columns and a round over the diagonals. -/
def doubleRound (s : Block) : Block :=
  let s := quarter s 0 4 8 12
  let s := quarter s 1 5 9 13
  let s := quarter s 2 6 10 14
  let s := quarter s 3 7 11 15
  let s := quarter s 0 5 10 15
  let s := quarter s 1 6 11 12
  let s := quarter s 2 7 8 13
  quarter s 3 4 9 14

/-- The constants: the text `expand 32-byte k`, four bytes a word. -/
def constants : List UInt32 := [0x61707865, 0x3320646e, 0x79622d32, 0x6b206574]

/-- The block before mixing: four constants, the key, the counter and two zero words. -/
def initial (key : List UInt32) (counter : UInt64) : Block :=
  let words := constants ++ key ++ [counter.toUInt32, (counter >>> 32).toUInt32, 0, 0]
  Vector.ofFn fun i => words.getD i 0

/-- Twelve rounds, and the block before mixing added. -/
def block (key : List UInt32) (counter : UInt64) : List UInt32 :=
  let start := initial key counter
  let mixed := Nat.repeat doubleRound 6 start
  (Vector.zipWith (· + ·) mixed start).toList

/-! ## The stream -/

/-- What is left of the current block, and the counter of the next one. -/
structure Stream where
  key : List UInt32
  counter : UInt64
  pending : List UInt32

/-- The stream of a seed. -/
def Stream.ofSeed (seed : UInt64) : Stream := ⟨keyOfSeed seed, 0, []⟩

/-- The next word. -/
def Stream.next (s : Stream) : UInt32 × Stream :=
  match s.pending with
  | word :: rest => (word, { s with pending := rest })
  | [] =>
    match block s.key s.counter with
    | word :: rest => (word, { s with counter := s.counter + 1, pending := rest })
    | [] => (0, s)

end TableEngine.Sampling
