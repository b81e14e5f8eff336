/-!
# Ranges of characters

Classes of characters that the Unicode standard lists are kept as ranges of code points, in
ascending order and with both ends included. The ranges are those of Unicode 17.
-/

namespace TableEngine.Text

/-- The code point of the character lies in one of the ranges. -/
def inRanges (ranges : List (Nat × Nat)) (c : Char) : Bool :=
  ranges.any fun (first, last) => first ≤ c.toNat && c.toNat ≤ last

end TableEngine.Text
