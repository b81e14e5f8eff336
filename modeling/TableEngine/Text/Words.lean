import TableEngine.Text.Blank

/-!
# Words

A word is a maximal run of characters that are not blank. There is no quoting, and
punctuation stays with the word it touches: `'New York'` is the two words `'New` and
`York'`, and `(1,` is one word.
-/

namespace TableEngine.Text

/-- The words of a text, in order. -/
def splitWords : List Char → List (List Char)
  | [] => []
  | c :: cs =>
    if isBlank c then splitWords cs
    else (c :: cs.takeWhile fun d => !isBlank d) :: splitWords (cs.dropWhile fun d => !isBlank d)
termination_by cs => cs.length
decreasing_by
  · exact Nat.lt_succ_self _
  · exact Nat.lt_succ_of_le (List.dropWhile_suffix _).length_le

/-- The words of a string, in order. -/
def words (s : String) : List String := (splitWords s.toList).map String.ofList

theorem splitWords_nil : splitWords [] = [] := by rw [splitWords]

theorem splitWords_cons_of_isBlank {c : Char} {cs : List Char} (h : isBlank c = true) :
    splitWords (c :: cs) = splitWords cs := by
  rw [splitWords, if_pos h]

end TableEngine.Text
