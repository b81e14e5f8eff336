import TableEngine.Text.Words

/-!
# Lines

A line ends at a line feed, and a carriage return right before the line feed belongs to the
ending. Text after the last line feed is a line only if there is any, so a final line feed
starts no further line.

`normalLines` writes every line as its words joined by single spaces.
-/

namespace TableEngine.Text

/-- The lines of a text, without their endings. -/
def splitLines : List Char → List (List Char)
  | [] => []
  | '\n' :: cs => [] :: splitLines cs
  | '\r' :: '\n' :: cs => [] :: splitLines cs
  | c :: cs =>
    match splitLines cs with
    | [] => [[c]]
    | line :: rest => (c :: line) :: rest

/-- The lines of a string, without their endings. -/
def lines (s : String) : List String := (splitLines s.toList).map String.ofList

/-- The words of a line joined by single spaces. -/
def normalLine (line : String) : String := " ".intercalate (words line)

/-- Every line of a text with its blanks collapsed. -/
def normalLines (raw : String) : List String := (lines raw).map normalLine

end TableEngine.Text
