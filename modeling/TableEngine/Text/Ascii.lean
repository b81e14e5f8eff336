/-!
# Letter case

Keywords, connectives and the names of the store strategies are compared without regard to
the case of the ASCII letters. All other characters have to be the same.
-/

namespace TableEngine.Text

/-- The characters of `s` with the ASCII letters in lower case. -/
def folded (s : String) : List Char := s.toList.map Char.toLower

/-- Equality up to the case of the ASCII letters. -/
def sameWord (s t : String) : Bool := folded s == folded t

theorem sameWord_iff {s t : String} : sameWord s t = true ↔ folded s = folded t := by
  simp [sameWord]

theorem sameWord_refl (s : String) : sameWord s s = true := by simp [sameWord]

end TableEngine.Text
