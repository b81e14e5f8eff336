import TableEngine.Text.Extender
import TableEngine.Text.Formless

/-!
# Hidden characters

A character is hidden if it cannot be seen, or would attach itself to what is printed before
it. No printable ASCII character is hidden.
-/

namespace TableEngine.Text

/-- The character is one of ASCII with a visible form, or the space. -/
def isPrintableAscii (c : Char) : Bool := 0x20 ≤ c.toNat && c.toNat < 0x7F

/-- The halfwidth sound marks of Katakana. They are extenders, and yet have a width of their
own. -/
def isSoundMark (c : Char) : Bool := c == '\uff9e' || c == '\uff9f'

/-- The character has no form, or is an extender without a width of its own. -/
def isHidden (c : Char) : Bool :=
  !isPrintableAscii c && (isFormless c || isExtender c && !isSoundMark c)

end TableEngine.Text
