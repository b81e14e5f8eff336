import TableEngine.Text.Conjunct
import TableEngine.Text.Pictograph
import TableEngine.Text.SpacingMark

/-!
# Clusters

What a reader takes for one character may be several: a letter with its accents, a syllable of
Hangul or Devanagari, two letters that show a flag, pictographs chained by joiners. `clusters`
cuts a text into these, by the rules of Unicode for extended grapheme clusters: `ClusterClass`
says what part a character plays, and `joins` whether a character goes on with the cluster
before it.

Clusters are what a backspace takes back (`TableEngine.Text.Erasure`), and serve nothing else. They
are part of the program as it runs; no theorem is about them.
-/

namespace TableEngine.Text

/-- The part that a character plays in a cluster. -/
inductive ClusterClass
  /-- Stands alone. -/
  | control
  | extender
  /-- The zero width joiner. -/
  | joiner
  | spacingMark
  /-- Belongs to the character after it. -/
  | leader
  /-- One of the letters that show a flag two by two. -/
  | flagLetter
  | pictograph
  | consonant
  /-- The consonants that begin a syllable of Hangul. -/
  | onset
  /-- The vowels of Hangul. -/
  | nucleus
  /-- The consonants that end a syllable of Hangul. -/
  | coda
  /-- A written syllable of Hangul without a coda. -/
  | openSyllable
  /-- A written syllable of Hangul with a coda. -/
  | closedSyllable
  | other
  deriving DecidableEq, Repr

/-- The code points of the controls. -/
def controlRanges : List (Nat × Nat) :=
  [(0x0, 0x1F), (0x7F, 0x9F), (0xAD, 0xAD), (0x61C, 0x61C), (0x180E, 0x180E), (0x200B, 0x200B),
   (0x200E, 0x200F), (0x2028, 0x202E), (0x2060, 0x206F), (0xFEFF, 0xFEFF), (0xFFF0, 0xFFFB),
   (0x13430, 0x1343F), (0x1BCA0, 0x1BCA3), (0x1D173, 0x1D17A), (0xE0000, 0xE001F),
   (0xE0080, 0xE00FF), (0xE01F0, 0xE0FFF)]

/-- The code points of the leaders. -/
def leaderRanges : List (Nat × Nat) :=
  [(0x600, 0x605), (0x6DD, 0x6DD), (0x70F, 0x70F), (0x890, 0x891), (0x8E2, 0x8E2), (0xD4E, 0xD4E),
   (0x110BD, 0x110BD), (0x110CD, 0x110CD), (0x111C2, 0x111C3), (0x113D1, 0x113D1),
   (0x1193F, 0x1193F), (0x11941, 0x11941), (0x11A3A, 0x11A3A), (0x11A84, 0x11A89),
   (0x11D46, 0x11D46), (0x11F02, 0x11F02)]

/-- The written syllables of Hangul. -/
def syllableRanges : List (Nat × Nat) := [(0xAC00, 0xD7A3)]

/-- The zero width joiner, which chains pictographs. -/
def zeroWidthJoiner : Char := '\u200d'

/-- The zero width non-joiner, an extender that keeps consonants apart. -/
def zeroWidthNonJoiner : Char := '\u200c'

/-- The part that a character plays in a cluster. -/
def ClusterClass.of (c : Char) : ClusterClass :=
  if inRanges [(0x20, 0x7E)] c then .other
  else if inRanges controlRanges c then .control
  else if c == zeroWidthJoiner then .joiner
  else if isExtender c || isColourModifier c then .extender
  else if isSpacingMark c then .spacingMark
  else if inRanges leaderRanges c then .leader
  else if inRanges [(0x1F1E6, 0x1F1FF)] c then .flagLetter
  else if isPictograph c then .pictograph
  else if isConsonant c then .consonant
  else if inRanges [(0x1100, 0x115F), (0xA960, 0xA97C)] c then .onset
  else if inRanges [(0x1160, 0x11A7), (0x16D63, 0x16D63), (0x16D67, 0x16D6A),
    (0xD7B0, 0xD7C6)] c then .nucleus
  else if inRanges [(0x11A8, 0x11FF), (0xD7CB, 0xD7FB)] c then .coda
  else if inRanges syllableRanges c then
    if (c.toNat - 0xAC00) % 28 == 0 then .openSyllable else .closedSyllable
  else .other

/-! ## Joining

A cluster in progress is kept with its last character first. -/

/-- A pictograph with extenders and a joiner ends the cluster. -/
def endsInChain : List Char → Bool
  | [] => false
  | last :: before =>
    last == zeroWidthJoiner &&
      match before.dropWhile fun c => ClusterClass.of c == .extender with
      | [] => false
      | c :: _ => ClusterClass.of c == .pictograph

/-- The character may stand between a consonant and the one that it is linked to. -/
def staysLinked (c : Char) : Bool :=
  isLinker c || c == zeroWidthJoiner || (ClusterClass.of c == .extender && c != zeroWidthNonJoiner)

/-- A consonant with a linker, and extenders around it, ends the cluster. -/
def endsInLink (cluster : List Char) : Bool :=
  (cluster.takeWhile staysLinked).any isLinker &&
    match cluster.dropWhile staysLinked with
    | [] => false
    | c :: _ => ClusterClass.of c == .consonant

/-- A flag letter that lacks its partner ends the cluster. -/
def endsInHalfFlag (cluster : List Char) : Bool :=
  (cluster.takeWhile fun c => ClusterClass.of c == .flagLetter).length % 2 == 1

/-- The character goes on with the cluster. -/
def joins (cluster : List Char) (c : Char) : Bool :=
  match cluster with
  | [] => false
  | last :: _ =>
    if last == '\r' && c == '\n' then true
    else
      match ClusterClass.of last, ClusterClass.of c with
      | .control, _ => false
      | _, .control => false
      | _, .extender => true
      | _, .joiner => true
      | _, .spacingMark => true
      | .leader, _ => true
      | _, .consonant => endsInLink cluster
      | _, .pictograph => endsInChain cluster
      | _, .flagLetter => endsInHalfFlag cluster
      | .onset, .onset => true
      | .onset, .nucleus => true
      | .onset, .openSyllable => true
      | .onset, .closedSyllable => true
      | .nucleus, .nucleus => true
      | .nucleus, .coda => true
      | .openSyllable, .nucleus => true
      | .openSyllable, .coda => true
      | .coda, .coda => true
      | .closedSyllable, .coda => true
      | _, _ => false

/-- The clusters of a text, the first of which goes on from what has been read of it. -/
def clustersFrom (cluster : List Char) : List Char → List (List Char)
  | [] => [cluster.reverse]
  | c :: cs =>
    if joins cluster c then clustersFrom (c :: cluster) cs
    else cluster.reverse :: clustersFrom [c] cs

/-- The clusters of a text, in order. -/
def clusters : List Char → List (List Char)
  | [] => []
  | c :: cs => clustersFrom [c] cs

end TableEngine.Text
