import TableEngine.Number.Shortest
import TableEngine.Proofs.Statement.Reading

/-!
# Bare words

A bare word has no blank, no parenthesis and no comma. It can stand in a statement as a name or
a value (`IsBare.isWord`), and as an item of a list (`isList_of_isBare`). Numerals are bare
(`isBare_toString`), and so is the decimal text of every binary number
(`Binary64.isBare_text`).
-/

namespace TableEngine

open Text

/-- Neither a blank, nor a parenthesis, nor a comma. -/
def IsBareChar (c : Char) : Prop := isBlank c = false ∧ IsPlain c

instance : DecidablePred IsBareChar := fun c =>
  inferInstanceAs (Decidable (isBlank c = false ∧ c ≠ '(' ∧ c ≠ ')' ∧ c ≠ ','))

/-- A word without parentheses and commas. -/
def IsBare (w : String) : Prop := w.toList ≠ [] ∧ ∀ c ∈ w.toList, IsBareChar c

instance : DecidablePred IsBare := fun w =>
  have : Decidable (∀ c ∈ w.toList, IsBareChar c) := List.decidableBAll _ w.toList
  inferInstanceAs (Decidable (w.toList ≠ [] ∧ ∀ c ∈ w.toList, IsBareChar c))

variable {v w : String}

namespace IsBare

theorem isWord (h : IsBare w) : IsWord w := ⟨h.1, fun c hc => (h.2 c hc).1⟩

theorem isItem (h : IsBare w) : IsItem w where
  words := ⟨[w], List.cons_ne_nil _ _, List.forall_mem_singleton.mpr h.isWord,
    (String.intercalate_singleton).symm⟩
  plain c hc := (h.2 c hc).2

theorem append (hv : IsBare v) (hw : IsBare w) : IsBare (v ++ w) := by
  rw [IsBare, String.toList_append]
  exact ⟨List.append_ne_nil_of_left_ne_nil hv.1 _, List.forall_mem_append.mpr ⟨hv.2, hw.2⟩⟩

end IsBare

theorem isList_of_isBare {list : List String} (hne : list ≠ []) (h : ∀ w ∈ list, IsBare w) :
    IsList list :=
  ⟨hne, fun w hw => (h w hw).isItem⟩

/-! ## Numerals -/

theorem isBareChar_of_isDigit {c : Char} (h : c.isDigit) : IsBareChar c := by
  have hblanks : ∀ c ∈ blanks, ¬c.isDigit := by simp [blanks]
  refine ⟨Bool.eq_false_iff.mpr fun hblank => hblanks c (isBlank_iff_mem.mp hblank) h, ?_⟩
  refine ⟨?_, ?_, ?_⟩ <;> rintro rfl <;> exact absurd h (by decide)

theorem isBareChar_of_mem_toDigits (n : Nat) : ∀ c ∈ Nat.toDigits 10 n, IsBareChar c :=
  fun _ hc => isBareChar_of_isDigit (Nat.isDigit_of_mem_toDigits (by decide) (by decide) hc)

theorem isBare_toString (n : Nat) : IsBare (toString n) := by
  show IsBare n.repr
  rw [IsBare, Nat.toList_repr]
  exact ⟨Nat.toDigits_ne_nil, isBareChar_of_mem_toDigits n⟩

namespace Binary64

variable {digits : List Char} (places : Nat)

theorem isBareChar_of_mem_pointed (h : ∀ c ∈ digits, IsBareChar c) :
    ∀ c ∈ pointed digits places, IsBareChar c := by
  have hpadded : ∀ c ∈ List.replicate (places + 1 - digits.length) '0' ++ digits, IsBareChar c := by
    refine List.forall_mem_append.mpr ⟨fun c hc => ?_, h⟩
    rw [List.eq_of_mem_replicate hc]
    decide
  unfold pointed
  generalize List.replicate (places + 1 - digits.length) '0' ++ digits = padded at hpadded
  intro c hc
  simp only at hc
  split at hc
  · exact hpadded c (List.mem_of_mem_take hc)
  · rw [List.mem_append, List.mem_cons, List.mem_reverse] at hc
    rcases hc with hc | rfl | hc
    · exact hpadded c (List.mem_of_mem_take hc)
    · decide
    · have hmem := (List.dropWhile_suffix _).mem hc
      exact hpadded c (List.mem_of_mem_drop (List.mem_reverse.mp hmem))

/-- There is a digit before the point. -/
theorem pointed_ne_nil : pointed digits places ≠ [] := by
  have htake : ∀ padded : List Char, places < padded.length →
      padded.take (padded.length - places) ≠ [] := by
    intro padded hlt hnil
    have hlen := congrArg List.length hnil
    rw [List.length_take, List.length_nil] at hlen
    omega
  have hlt : places < (List.replicate (places + 1 - digits.length) '0' ++ digits).length := by
    rw [List.length_append, List.length_replicate]
    omega
  unfold pointed
  simp only
  split
  · exact htake _ hlt
  · exact List.append_ne_nil_of_left_ne_nil (htake _ hlt) _

theorem Decimal.isBareChar_of_mem_text (d : Decimal) : ∀ c ∈ d.text, IsBareChar c := by
  have hdigits := isBareChar_of_mem_toDigits d.digits
  unfold Decimal.text
  simp only
  split
  · split
    · exact hdigits
    · refine List.forall_mem_append.mpr ⟨hdigits, fun c hc => ?_⟩
      rw [List.eq_of_mem_replicate hc]
      decide
  · exact isBareChar_of_mem_pointed _ hdigits

theorem Decimal.text_ne_nil (d : Decimal) : d.text ≠ [] := by
  unfold Decimal.text
  simp only
  split
  · split
    · exact Nat.toDigits_ne_nil
    · exact List.append_ne_nil_of_left_ne_nil Nat.toDigits_ne_nil _
  · exact pointed_ne_nil _

/-- The text of a number can stand wherever a word can. -/
theorem isBare_text (x : Binary64) : IsBare x.text := by
  have hsign : ∀ c ∈ if x.negative then ['-'] else [], IsBareChar c := by
    split
    · exact List.forall_mem_singleton.mpr (by decide)
    · nofun
  rw [IsBare, text, String.toList_ofList]
  exact ⟨List.append_ne_nil_of_right_ne_nil _ x.shortest.text_ne_nil,
    List.forall_mem_append.mpr ⟨hsign, x.shortest.isBareChar_of_mem_text⟩⟩

end Binary64

end TableEngine
