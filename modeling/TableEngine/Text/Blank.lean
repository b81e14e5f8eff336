/-!
# Blank characters

`isBlank` is the Unicode property White_Space. It separates the words of a statement and is
trimmed from the items of a list. Control characters such as U+001C to U+001F, the zero
width space U+200B and the byte order mark U+FEFF are not blank.
-/

namespace TableEngine.Text

/-- The characters of Unicode's White_Space. -/
def blanks : List Char :=
  ['\t', '\n', '\x0b', '\x0c', '\r', ' ', '\u0085', '\u00a0', '\u1680', '\u2000', '\u2001',
   '\u2002', '\u2003', '\u2004', '\u2005', '\u2006', '\u2007', '\u2008', '\u2009', '\u200a',
   '\u2028', '\u2029', '\u202f', '\u205f', '\u3000']

/-- The character is a blank. -/
def isBlank (c : Char) : Bool := blanks.contains c

theorem isBlank_iff_mem {c : Char} : isBlank c = true ↔ c ∈ blanks := List.contains_iff_mem

/-- Drop the blanks at both ends. -/
def trim (cs : List Char) : List Char :=
  ((cs.dropWhile isBlank).reverse.dropWhile isBlank).reverse

end TableEngine.Text
