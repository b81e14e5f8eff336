/-!
# SipHash-1-3

The keyed hash SipHash with one round per eight-byte word and three rounds at the end, under
the key of two zero words. It places the keys of the slot arrays (`TableEngine.Store.Slots`).

`SipState.round` is the mixing step, `SipState.absorb` takes one word of the message, and
`sip13` hashes a whole message of bytes.
-/

namespace TableEngine.Hash

/-- The four words that the hash mixes. -/
structure SipState where
  v0 : UInt64
  v1 : UInt64
  v2 : UInt64
  v3 : UInt64

/-- Rotate a word to the left by `k` places, `0 < k < 64`. -/
def rotateLeft (x k : UInt64) : UInt64 := (x <<< k) ||| (x >>> (64 - k))

namespace SipState

/-- The state of the zero key. -/
def start : SipState :=
  ⟨0x736f6d6570736575, 0x646f72616e646f6d, 0x6c7967656e657261, 0x7465646279746573⟩

/-- One mixing round. -/
def round (s : SipState) : SipState :=
  let v0 := s.v0 + s.v1
  let v1 := rotateLeft s.v1 13 ^^^ v0
  let v0 := rotateLeft v0 32
  let v2 := s.v2 + s.v3
  let v3 := rotateLeft s.v3 16 ^^^ v2
  let v0 := v0 + v3
  let v3 := rotateLeft v3 21 ^^^ v0
  let v2 := v2 + v1
  let v1 := rotateLeft v1 17 ^^^ v2
  ⟨v0, v1, rotateLeft v2 32, v3⟩

/-- Take one word of the message. -/
def absorb (s : SipState) (word : UInt64) : SipState :=
  let t := round { s with v3 := s.v3 ^^^ word }
  { t with v0 := t.v0 ^^^ word }

/-- Three closing rounds, and the four words joined. -/
def finish (s : SipState) : UInt64 :=
  let t := round (round (round { s with v2 := s.v2 ^^^ 0xff }))
  t.v0 ^^^ t.v1 ^^^ t.v2 ^^^ t.v3

end SipState

/-- The word whose bytes, least significant first, are `bytes`. -/
def littleEndian (bytes : List UInt8) : UInt64 :=
  bytes.foldr (fun b word => (word <<< 8) ||| b.toUInt64) 0

/-- Take the message eight bytes at a time; the last word holds what is left, and the length
of the message modulo 256 in its highest byte. -/
def absorbBytes (length : Nat) : SipState → List UInt8 → SipState
  | s, b0 :: b1 :: b2 :: b3 :: b4 :: b5 :: b6 :: b7 :: rest =>
    absorbBytes length (s.absorb (littleEndian [b0, b1, b2, b3, b4, b5, b6, b7])) rest
  | s, rest => s.absorb ((length.toUInt64 <<< 56) ||| littleEndian rest)

/-- SipHash-1-3 of a message, under the zero key. -/
def sip13 (bytes : List UInt8) : UInt64 :=
  (absorbBytes bytes.length .start bytes).finish

end TableEngine.Hash
