import TableEngine.Text.Cluster

/-!
# Erasure

A backspace in a line takes back the cluster before it, whatever number of characters that is,
and vanishes. Without a cluster before it, it only vanishes.

The length of each cluster is kept in one byte. Of a cluster of 256 bytes or more a backspace
takes back no more than its length modulo 256, from its end.

This is how a line editor treats the backspaces of input that is not typed. It is stated here so
that a session reads such lines as they are meant; no theorem is about it.
-/

namespace TableEngine.Text

/-- The length of a text in bytes, modulo 256. -/
def byteLength (cs : List Char) : UInt8 :=
  (cs.foldr (fun (c : Char) n => c.utf8Size + n) 0).toUInt8

/-- Take `n` bytes off a text that is kept with its last character first. -/
def dropBytes (n : Nat) : List Char → List Char
  | [] => []
  | c :: cs => if c.utf8Size ≤ n then dropBytes (n - c.utf8Size) cs else c :: cs

/-- What is left of a line, with the last character first, and the lengths of its clusters. -/
structure Erasure where
  kept : List Char
  lengths : List UInt8
  deriving DecidableEq, Repr

namespace Erasure

/-- Nothing read. -/
def empty : Erasure := ⟨[], []⟩

def backspace : Char := '\x08'

/-- Read a cluster. -/
def read (e : Erasure) (cluster : List Char) : Erasure :=
  if cluster = [backspace] then
    match e.lengths with
    | [] => e
    | n :: lengths => ⟨dropBytes n.toNat e.kept, lengths⟩
  else ⟨cluster.reverse ++ e.kept, byteLength cluster :: e.lengths⟩

end Erasure

/-- A line after its backspaces. -/
def erased (line : List Char) : List Char :=
  ((clusters line).foldl Erasure.read .empty).kept.reverse

end TableEngine.Text
