import TableEngine.Proofs.Text.Spacing

/-!
# Tidy texts

A text is tidy if it is not empty, has no blank at either end, and no blank but spaces
inside. A word is tidy (`IsWord.tidy`), and so is every piece that is cut from words joined
with spaces and then trimmed, unless nothing is left of it (`tidy_trim`). Texts without a
certain character can be joined by it and split again (`pieces_intercalate`); no tidy text
has a tab or a line feed (`Tidy.not_mem`).
-/

namespace TableEngine.Text

/-- Not empty, no blank at either end, and no blank but spaces inside. -/
structure Tidy (s : String) : Prop where
  ne_nil : s.toList ≠ []
  eq_space : ∀ c ∈ s.toList, isBlank c = true → c = ' '
  head : ∀ c ∈ s.toList.head?, isBlank c = false
  last : ∀ c ∈ s.toList.getLast?, isBlank c = false

variable {cs : List Char} {c : Char} {w : String} {ws : List String}

theorem IsWord.tidy (h : IsWord w) : Tidy w where
  ne_nil := h.1
  eq_space c hc hblank := absurd hblank (by simp [h.2 c hc])
  head c hc := h.2 c (List.mem_of_mem_head? hc)
  last c hc := h.2 c (List.mem_of_mem_getLast? hc)

/-- A tidy text without blanks is a word. -/
theorem Tidy.isWord (h : Tidy w) (hblank : ∀ c ∈ w.toList, isBlank c = false) : IsWord w :=
  ⟨h.ne_nil, hblank⟩

/-- A tidy text stays on its line and within its cell. -/
theorem Tidy.not_mem (h : Tidy w) (hblank : isBlank c = true) (hc : c ≠ ' ') : c ∉ w.toList :=
  fun hmem => hc (h.eq_space c hmem hblank)

/-! ## Trimming -/

theorem mem_of_mem_trim (h : c ∈ trim cs) : c ∈ cs :=
  (List.dropWhile_suffix _).mem ((List.rdropWhile_prefix isBlank _).mem h)

theorem isBlank_of_mem_head?_trim (h : c ∈ (trim cs).head?) : isBlank c = false := by
  obtain ⟨rest, hrest⟩ := List.rdropWhile_prefix isBlank (cs.dropWhile isBlank)
  have hhead : (cs.dropWhile isBlank).head? = some c := by
    rw [← hrest, List.head?_append]
    exact Option.or_eq_some_iff.mpr (Or.inl h)
  have hstop := List.head?_dropWhile_not isBlank cs
  rwa [hhead] at hstop

theorem isBlank_of_mem_getLast?_trim (h : c ∈ (trim cs).getLast?) : isBlank c = false := by
  obtain ⟨hne, rfl⟩ := List.mem_getLast?_eq_getLast h
  exact Bool.not_eq_true _ ▸ List.rdropWhile_last_not isBlank _ hne

/-- Joined texts have the characters of the separator and their own. -/
theorem mem_or_exists_of_mem_intercalate {sep : String} : ∀ {ws : List String},
    c ∈ (sep.intercalate ws).toList → c ∈ sep.toList ∨ ∃ w ∈ ws, c ∈ w.toList
  | [], h => by simp at h
  | [w], h => by
    rw [String.intercalate_singleton] at h
    exact Or.inr ⟨w, List.mem_singleton_self w, h⟩
  | w :: v :: ws, h => by
    rw [String.intercalate_cons_cons, String.toList_append, String.toList_append,
      List.mem_append, List.mem_append] at h
    rcases h with (h | h) | h
    · exact Or.inr ⟨w, List.mem_cons_self, h⟩
    · exact Or.inl h
    · refine (mem_or_exists_of_mem_intercalate h).imp_right ?_
      rintro ⟨u, hu, hmem⟩
      exact ⟨u, List.mem_cons_of_mem w hu, hmem⟩

/-- What is left of a part of joined words when it is trimmed is tidy. -/
theorem tidy_trim (hws : ∀ w ∈ ws, IsWord w) (hcs : ∀ c ∈ cs, c ∈ (" ".intercalate ws).toList)
    (hne : trim cs ≠ []) : Tidy (String.ofList (trim cs)) where
  ne_nil := by rwa [String.toList_ofList]
  eq_space c hc hblank := by
    rw [String.toList_ofList] at hc
    rcases mem_or_exists_of_mem_intercalate (hcs c (mem_of_mem_trim hc)) with h | ⟨w, hw, hmem⟩
    · simpa using h
    · rw [(hws w hw).2 c hmem] at hblank
      cases hblank
  head c hc := by
    rw [String.toList_ofList] at hc
    exact isBlank_of_mem_head?_trim hc
  last c hc := by
    rw [String.toList_ofList] at hc
    exact isBlank_of_mem_getLast?_trim hc

/-! ## Pieces -/

/-- The parts of a text between the places where the character stands. -/
def pieces (c : Char) (s : String) : List String := (s.toList.splitOn c).map String.ofList

/-- Joined by a character that none of them has, texts are found again. -/
theorem pieces_intercalate (hne : ws ≠ []) (h : ∀ w ∈ ws, c ∉ w.toList) :
    pieces c ((String.singleton c).intercalate ws) = ws := by
  have hsplit : ∀ cs ∈ ws.map String.toList, c ∉ cs := List.forall_mem_map.mpr h
  rw [pieces, String.toList_intercalate, String.toList_singleton,
    List.splitOn_intercalate c hsplit (by simpa using hne), List.map_map]
  simp

end TableEngine.Text
