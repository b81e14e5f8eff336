import TableEngine.Proofs.Text.Spacing

/-!
# Words are the longest runs without a blank

A letter is a character that is not blank. The words of a text have all its letters in
their order (`Spaced.flatMap_toList`), and a run of letters with no letter beside it is one of
the words (`splitWords_run`). So every letter stands in one word (`StandsIn`), and two of
them stand in the same word exactly if no blank is between them
(`exists_standsIn_iff`). `words_runs` puts this together with the laws of spacing.
-/

namespace TableEngine.Text

/-- The characters that are not blank, in order. -/
def letters (cs : List Char) : List Char := cs.filter fun c => !isBlank c

/-- A letter is at place `i` of the text. -/
def LetterAt (s : String) (i : Nat) : Prop := ∃ c, s.toList[i]? = some c ∧ isBlank c = false

/-- The character at place `i` of the text stands in the word of number `k` : the letters
before it are those of the words before, and some at the front of this word. -/
def StandsIn (s : String) (i k : Nat) : Prop :=
  ∃ c w u v, s.toList[i]? = some c ∧ (words s)[k]? = some w ∧ w.toList = u ++ c :: v ∧
    letters (s.toList.take i) = ((words s).take k).flatMap String.toList ++ u

variable {g x y cs : List Char} {b : Char} {w s : String} {ws : List String} {i j k l : Nat}

/-! ## Letters -/

theorem letters_append (x y : List Char) : letters (x ++ y) = letters x ++ letters y :=
  List.filter_append x y

theorem letters_of_forall (h : ∀ c ∈ x, isBlank c = false) : letters x = x :=
  List.filter_eq_self.mpr fun c hc => by simp [h c hc]

theorem letters_gap (hg : Gap g) : letters g = [] :=
  List.filter_eq_nil_iff.mpr fun c hc => by simp [hg c hc]

theorem letters_cons_of_isBlank (hb : isBlank b = true) : letters (b :: x) = letters x :=
  List.filter_cons_of_neg (by simp [hb])

/-- The words of a spaced text have its letters, each once and in order. -/
theorem Spaced.flatMap_toList (h : Spaced ws cs) : ws.flatMap String.toList = letters cs := by
  induction h with
  | nil hg => rw [letters_gap hg, List.flatMap_nil]
  | last hg hw =>
    rw [letters_append, letters_gap hg, letters_of_forall hw.2, List.flatMap_singleton]
    rfl
  | cons hg hw hb _ ih =>
    rw [letters_append, letters_append, letters_gap hg, letters_of_forall hw.2,
      letters_cons_of_isBlank hb, List.flatMap_cons, ih]
    rfl

/-- A letter raises the number of letters of every text that goes on past it. -/
theorem length_letters_take_lt {m : Nat} (h : LetterAt s i) (hlt : i < m) :
    (letters (s.toList.take i)).length < (letters (s.toList.take m)).length := by
  obtain ⟨c, hc, hletter⟩ := h
  obtain ⟨rest, hrest⟩ := List.take_prefix_take_left (l := s.toList) (Nat.succ_le_of_lt hlt)
  have hstep : s.toList.take (i + 1) = s.toList.take i ++ [c] := by
    rw [List.take_add_one, hc]
    rfl
  rw [← hrest, hstep, letters_append, letters_append,
    letters_of_forall (List.forall_mem_singleton.mpr hletter), List.length_append,
    List.length_append, List.length_singleton]
  omega

theorem length_letters_take_le {m : Nat} (hle : m ≤ j) :
    (letters (s.toList.take m)).length ≤ (letters (s.toList.take j)).length := by
  obtain ⟨rest, hrest⟩ := List.take_prefix_take_left (l := s.toList) hle
  rw [← hrest, letters_append, List.length_append]
  omega

/-! ## Runs -/

/-- A run of letters with no letter beside it is a word. -/
theorem splitWords_run (hx : ∀ c ∈ x.getLast?, isBlank c = true) (hw : IsWord w)
    (hy : ∀ c ∈ y.head?, isBlank c = true) :
    splitWords (x ++ (w.toList ++ y)) = splitWords x ++ w.toList :: splitWords y := by
  rw [splitWords_append (Or.inl hx), splitWords_append (Or.inr hy), hw.splitWords]
  rfl

/-- A text ends with a run of letters, perhaps empty, that no letter comes before. -/
theorem exists_last_run (x : List Char) : ∃ x' u, x = x' ++ u ∧
    (∀ c ∈ u, isBlank c = false) ∧ ∀ c ∈ x'.getLast?, isBlank c = true := by
  refine ⟨x.rdropWhile fun d => !isBlank d, x.rtakeWhile fun d => !isBlank d,
    List.rdropWhile_append_rtakeWhile.symm, fun c hc => ?_, fun c hc => ?_⟩
  · simpa using List.mem_rtakeWhile_imp hc
  · obtain ⟨hne, rfl⟩ := List.mem_getLast?_eq_getLast hc
    simpa using List.rdropWhile_last_not _ _ hne

/-! ## The word of a letter -/

/-- The number of letters in the first `k` words. -/
def reach (ws : List String) (k : Nat) : Nat := ((ws.take k).flatMap String.toList).length

theorem reach_mono (ws : List String) (hle : k ≤ l) : reach ws k ≤ reach ws l := by
  obtain ⟨rest, hrest⟩ := List.take_prefix_take_left (l := ws) hle
  rw [reach, reach, ← hrest, List.flatMap_append, List.length_append]
  omega

theorem StandsIn.letterAt (h : StandsIn s i k) : LetterAt s i := by
  obtain ⟨c, w, u, v, hc, hk, hw, -⟩ := h
  have hword := (spaced_splitWords s.toList).isWord w (List.mem_of_getElem? hk)
  exact ⟨c, hc, hword.2 c (by simp [hw])⟩

/-- The letters before place `i` reach into word `k`, but not to its end. -/
theorem StandsIn.reach_le (h : StandsIn s i k) :
    reach (words s) k ≤ (letters (s.toList.take i)).length ∧
      (letters (s.toList.take i)).length < reach (words s) (k + 1) := by
  obtain ⟨c, w, u, v, -, hk, hw, hletters⟩ := h
  have hnext : (words s).take (k + 1) = (words s).take k ++ [w] := by
    rw [List.take_add_one, hk]
    rfl
  rw [reach, reach, hletters, hnext, List.flatMap_append, List.flatMap_singleton, hw]
  simp only [List.length_append, List.length_cons]
  omega

/-- Words come in the order of their letters. -/
theorem StandsIn.le (h : StandsIn s i k) (h' : StandsIn s j l) (hij : i ≤ j) : k ≤ l := by
  by_contra hlk
  have hreach := reach_mono (words s) (show l + 1 ≤ k by omega)
  have hletters := length_letters_take_le (s := s) hij
  have hstart := h.reach_le.1
  have hend := h'.reach_le.2
  omega

theorem StandsIn.unique (h : StandsIn s i k) (h' : StandsIn s i l) : k = l :=
  Nat.le_antisymm (h.le h' le_rfl) (h'.le h le_rfl)

/-- Up to a blank, the letters are those of the words so far. -/
theorem reach_of_blank (hs : s.toList = x ++ b :: y) (hb : isBlank b = true) :
    reach (words s) (splitWords x).length = (letters x).length := by
  have hwords : words s = words (String.ofList x) ++ words (String.ofList y) := by
    simp [words, hs, splitWords_append_blank hb]
  have hlength : (words (String.ofList x)).length = (splitWords x).length := by simp [words]
  have hletters := (spaced_splitWords x).flatMap_toList
  rw [reach, hwords, ← hlength, List.take_left, words, String.toList_ofList, hletters]

/-- A blank separates the words of the letters before it from those of the letters after. -/
theorem StandsIn.lt_of_blank {m : Nat} (h : StandsIn s i k) (h' : StandsIn s j l)
    (hb : s.toList[m]? = some b) (hblank : isBlank b = true) (him : i < m) (hmj : m < j) :
    k < l := by
  have hs : s.toList = s.toList.take m ++ b :: s.toList.drop (m + 1) := by
    obtain ⟨hm, rfl⟩ := List.getElem?_eq_some_iff.mp hb
    simp
  have hcut := reach_of_blank hs hblank
  have hbefore := length_letters_take_lt h.letterAt him
  have hafter := length_letters_take_le (s := s) hmj.le
  have hstart := h.reach_le.1
  have hend := h'.reach_le.2
  have hk : k < (splitWords (s.toList.take m)).length := by
    by_contra hge
    have := reach_mono (words s) (Nat.le_of_not_lt hge)
    omega
  have hl : (splitWords (s.toList.take m)).length ≤ l := by
    by_contra hlt
    have := reach_mono (words s) (show l + 1 ≤ (splitWords (s.toList.take m)).length by omega)
    omega
  omega

/-- A run of letters with no letter beside it stands in one word. -/
theorem standsIn_run (hs : s.toList = x ++ (w.toList ++ y))
    (hx : ∀ c ∈ x.getLast?, isBlank c = true) (hw : IsWord w)
    (hy : ∀ c ∈ y.head?, isBlank c = true) (hj : j < w.toList.length) :
    StandsIn s (x.length + j) (splitWords x).length := by
  have hwords : words s = words (String.ofList x) ++ w :: words (String.ofList y) := by
    simp [words, hs, splitWords_run hx hw hy]
  have hlength : (words (String.ofList x)).length = (splitWords x).length := by simp [words]
  have hfront : ∀ c ∈ w.toList.take j, isBlank c = false := fun c hc =>
    hw.2 c (List.mem_of_mem_take hc)
  refine ⟨w.toList[j], w, w.toList.take j, w.toList.drop (j + 1), ?_, ?_, ?_, ?_⟩
  · rw [hs, List.getElem?_append_right (Nat.le_add_right _ _), Nat.add_sub_cancel_left,
      List.getElem?_append_left hj, List.getElem?_eq_getElem hj]
  · rw [hwords, ← hlength]
    simp
  · rw [← List.drop_eq_getElem_cons hj, List.take_append_drop]
  · rw [hs, List.take_length_add_append, List.take_append_of_le_length hj.le, letters_append,
      letters_of_forall hfront, hwords, ← hlength, List.take_left, words, String.toList_ofList,
      (spaced_splitWords x).flatMap_toList]

/-- Letters that stand side by side are part of a run with no letter beside it. -/
theorem exists_run_around (x y : List Char) (hne : g ≠ []) (hg : ∀ c ∈ g, isBlank c = false) :
    ∃ x' u w y', x = x' ++ u ∧ u.length + g.length ≤ w.toList.length ∧
      x ++ (g ++ y) = x' ++ (w.toList ++ y') ∧ (∀ c ∈ x'.getLast?, isBlank c = true) ∧
        IsWord w ∧ ∀ c ∈ y'.head?, isBlank c = true := by
  obtain ⟨x', u, rfl, hu, hx⟩ := exists_last_run x
  obtain ⟨v, y', rfl, hv, hy⟩ := exists_first_run y
  refine ⟨x', u, String.ofList (u ++ g ++ v), y', rfl, ?_, ?_, hx, ?_, hy⟩
  · simp
  · simp
  · rw [IsWord, String.toList_ofList, List.forall_mem_append, List.forall_mem_append]
    exact ⟨by simp [hne], ⟨hu, hg⟩, hv⟩

/-- Letters without a blank between them stand in one word. -/
theorem exists_standsIn (hle : i ≤ j) (h : ∀ m, i ≤ m → m ≤ j → LetterAt s m) :
    ∃ k, StandsIn s i k ∧ StandsIn s j k := by
  obtain ⟨d, hd, -⟩ := h j hle le_rfl
  have hlt : j < s.toList.length := (List.getElem?_eq_some_iff.mp hd).1
  have hlength : ((s.toList.drop i).take (j + 1 - i)).length = j + 1 - i := by
    rw [List.length_take, List.length_drop]
    omega
  have hbetween : ∀ c ∈ (s.toList.drop i).take (j + 1 - i), isBlank c = false := by
    intro c hc
    obtain ⟨n, hn⟩ := List.mem_iff_getElem?.mp hc
    obtain ⟨hn_lt, -⟩ := List.getElem?_eq_some_iff.mp hn
    obtain ⟨e, he, hletter⟩ := h (i + n) (Nat.le_add_right i n) (by omega)
    rw [List.getElem?_take_of_lt (by omega), List.getElem?_drop, he] at hn
    exact Option.some.inj hn ▸ hletter
  have hne : (s.toList.drop i).take (j + 1 - i) ≠ [] := by
    rw [← List.length_pos_iff, hlength]
    omega
  obtain ⟨x, u, w, y, hbefore, hroom, hs, hx, hw, hy⟩ :=
    exists_run_around (s.toList.take i) ((s.toList.drop i).drop (j + 1 - i)) hne hbetween
  rw [List.take_append_drop, List.take_append_drop] at hs
  have hx_length : x.length + u.length = i := by
    rw [← List.length_append, ← hbefore, List.length_take]
    omega
  refine ⟨(splitWords x).length, ?_, ?_⟩
  · rw [← hx_length]
    exact standsIn_run hs hx hw hy (by omega)
  · rw [show j = x.length + (u.length + (j - i)) by omega]
    exact standsIn_run hs hx hw hy (by omega)

/-- Two letters stand in the same word exactly if there are only letters between them. -/
theorem exists_standsIn_iff (hi : LetterAt s i) (hj : LetterAt s j) (hij : i < j) :
    (∃ k, StandsIn s i k ∧ StandsIn s j k) ↔ ∀ m, i < m → m < j → LetterAt s m := by
  constructor
  · rintro ⟨k, hik, hjk⟩ m him hmj
    obtain ⟨d, hd, -⟩ := hj
    have hm : m < s.toList.length := hmj.trans (List.getElem?_eq_some_iff.mp hd).1
    refine ⟨s.toList[m], List.getElem?_eq_getElem hm, Bool.eq_false_iff.mpr fun hblank => ?_⟩
    exact lt_irrefl k (hik.lt_of_blank hjk (List.getElem?_eq_getElem hm) hblank him hmj)
  · intro h
    refine exists_standsIn hij.le fun m him hmj => ?_
    rcases Nat.eq_or_lt_of_le him with rfl | him
    · exact hi
    · rcases Nat.eq_or_lt_of_le hmj with rfl | hmj
      · exact hj
      · exact h m him hmj

theorem existsUnique_standsIn_iff : (∃! k, StandsIn s i k) ↔ LetterAt s i := by
  constructor
  · rintro ⟨k, hk, -⟩
    exact hk.letterAt
  · intro hi
    obtain ⟨k, hk, -⟩ := exists_standsIn (s := s) le_rfl fun m him hmi =>
      Nat.le_antisymm him hmi ▸ hi
    exact ⟨k, hk, fun l hl => hl.unique hk⟩

/-- The words of a text are not empty, have no blanks, and are together the text without its
blanks. Every letter stands in one word, and two letters in the same word exactly if no blank is
between them. A list of words is what is read from a text exactly if the text is these words with
blanks between them, and perhaps around them. A text splits at every blank. -/
theorem words_runs :
    (∀ s : String,
      (∀ w ∈ words s, IsWord w) ∧ (words s).flatMap String.toList = letters s.toList ∧
      (∀ i, (∃! k, StandsIn s i k) ↔ LetterAt s i) ∧
      ∀ i j, i < j → LetterAt s i → LetterAt s j →
        ((∃ k, StandsIn s i k ∧ StandsIn s j k) ↔ ∀ m, i < m → m < j → LetterAt s m)) ∧
    (∀ (ws : List String) (s : String), words s = ws ↔ Spaced ws s.toList) ∧
    ∀ (s t : String) (b : Char), isBlank b = true →
      words (s ++ String.singleton b ++ t) = words s ++ words t := by
  refine ⟨fun s => ?_, fun ws s => words_eq_iff, fun s t b hb => ?_⟩
  · have hspaced := spaced_splitWords s.toList
    exact ⟨hspaced.isWord, hspaced.flatMap_toList, fun i => existsUnique_standsIn_iff,
      fun i j hij hi hj => exists_standsIn_iff hi hj hij⟩
  · have htext : (s ++ String.singleton b ++ t).toList = s.toList ++ b :: t.toList := by simp
    rw [words, htext, splitWords_append_blank hb, List.map_append]
    rfl

/-- A no-break space separates words like any other blank. -/
theorem words_runs_noBreakSpace :
    let s := "a\u00a0bc"
    (isBlank '\u00a0' = true ∧ words s = words "a" ++ words "bc") ∧
    (LetterAt s 0 ∧ LetterAt s 2 ∧ LetterAt s 3) ∧
    (∃ k, StandsIn s 2 k ∧ StandsIn s 3 k) ∧ ¬∃ k, StandsIn s 0 k ∧ StandsIn s 2 k := by
  intro s
  obtain ⟨hruns, -, hsplit⟩ := words_runs
  obtain ⟨-, -, -, hsame⟩ := hruns s
  have h0 : LetterAt s 0 := ⟨'a', by decide, by decide⟩
  have h2 : LetterAt s 2 := ⟨'b', by decide, by decide⟩
  have h3 : LetterAt s 3 := ⟨'c', by decide, by decide⟩
  refine ⟨⟨by decide, hsplit "a" "bc" '\u00a0' (by decide)⟩, ⟨h0, h2, h3⟩, ?_, fun h => ?_⟩
  · exact (hsame 2 3 (by decide) h2 h3).mpr fun m hm hm' => by omega
  · obtain ⟨c, hc, hletter⟩ := (hsame 0 2 (by decide) h0 h2).mp h 1 (by decide) (by decide)
    obtain rfl : '\u00a0' = c := Option.some.inj (Eq.trans (by decide) hc)
    exact absurd hletter (by decide)

end TableEngine.Text
