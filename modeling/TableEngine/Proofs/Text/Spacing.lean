import TableEngine.Text.Words
import Mathlib.Data.List.DropRight

/-!
# Words and the blanks between them

`Spaced ws cs` : the characters `cs` are the words `ws` in order, with a blank at least
between two of them and any blanks around. This is what reading the words of a text
undoes (`words_eq_iff`), since a text splits at a blank (`splitWords_append_blank`).

`collapse` writes one space for every run of blanks. To join the words of a text with
single spaces is to collapse and to trim it (`trim_collapse`). A comma or a parenthesis
may stand inside a word, so reading words does not split at it, but `collapse` does
(`collapse_append_cons`).
-/

namespace TableEngine.Text

/-- Blanks only, or nothing. -/
def Gap (g : List Char) : Prop := ∀ c ∈ g, isBlank c = true

/-- Not empty, and without a blank. -/
def IsWord (w : String) : Prop := w.toList ≠ [] ∧ ∀ c ∈ w.toList, isBlank c = false

instance : DecidablePred IsWord := fun w =>
  have : Decidable (∀ c ∈ w.toList, isBlank c = false) := List.decidableBAll _ w.toList
  inferInstanceAs (Decidable (w.toList ≠ [] ∧ ∀ c ∈ w.toList, isBlank c = false))

/-- The words in order, each with any blanks before it, and a blank after each that does
not end the text. -/
inductive Spaced : List String → List Char → Prop
  | nil {g : List Char} : Gap g → Spaced [] g
  | last {g : List Char} {w : String} : Gap g → IsWord w → Spaced [w] (g ++ w.toList)
  | cons {g : List Char} {w : String} {b : Char} {ws : List String} {rest : List Char} :
    Gap g → IsWord w → isBlank b = true → Spaced ws rest →
      Spaced (w :: ws) (g ++ w.toList ++ b :: rest)

variable {g x y cs : List Char} {b c : Char} {w : String} {ws : List String}

theorem Gap.tail (h : Gap (c :: g)) : Gap g := fun d hd => h d (List.mem_cons_of_mem c hd)

theorem isBlank_space : isBlank ' ' = true := by decide

/-! ## Reading words -/

theorem takeWhile_append_cons {p : Char → Bool} (hc : p c = false) :
    (x ++ c :: y).takeWhile p = x.takeWhile p := by
  induction x with
  | nil => simp [hc]
  | cons d x ih => rw [List.cons_append, List.takeWhile_cons, List.takeWhile_cons, ih]

theorem dropWhile_append_cons {p : Char → Bool} (hc : p c = false) :
    (x ++ c :: y).dropWhile p = x.dropWhile p ++ c :: y := by
  induction x with
  | nil => simp [hc]
  | cons d x ih =>
    rw [List.cons_append, List.dropWhile_cons, List.dropWhile_cons, ih]
    split <;> rfl

theorem splitWords_cons (hc : isBlank c = false) : splitWords (c :: cs) =
    (c :: cs.takeWhile fun d => !isBlank d) :: splitWords (cs.dropWhile fun d => !isBlank d) := by
  rw [splitWords, if_neg (by simp [hc])]

/-- A text splits at a blank. -/
theorem splitWords_append_blank (hb : isBlank b = true) :
    splitWords (x ++ b :: y) = splitWords x ++ splitWords y := by
  have hend : (!isBlank b) = false := by rw [hb, Bool.not_true]
  induction x using splitWords.induct with
  | case1 => rw [List.nil_append, splitWords_cons_of_isBlank hb, splitWords_nil, List.nil_append]
  | case2 c cs hc ih =>
    rw [List.cons_append, splitWords_cons_of_isBlank hc, splitWords_cons_of_isBlank hc, ih]
  | case3 c cs hc ih =>
    have hc : isBlank c = false := by simpa using hc
    rw [List.cons_append, splitWords_cons hc, takeWhile_append_cons hend,
      dropWhile_append_cons hend, ih, splitWords_cons hc, List.cons_append]

/-- A text splits next to a blank, and at its ends. -/
theorem splitWords_append (h : (∀ c ∈ x.getLast?, isBlank c = true) ∨
    ∀ c ∈ y.head?, isBlank c = true) : splitWords (x ++ y) = splitWords x ++ splitWords y := by
  rcases h with h | h
  · rcases List.eq_nil_or_concat x with rfl | ⟨x, b, rfl⟩
    · rw [splitWords_nil]
      rfl
    · have hb : isBlank b = true := h b (by simp)
      rw [List.concat_eq_append, List.append_assoc, List.singleton_append,
        splitWords_append_blank hb, splitWords_append_blank hb, splitWords_nil, List.append_nil]
  · cases y with
    | nil => rw [splitWords_nil, List.append_nil, List.append_nil]
    | cons b y =>
      have hb : isBlank b = true := h b rfl
      rw [splitWords_append_blank hb, splitWords_cons_of_isBlank hb]

theorem splitWords_gap_append (hg : Gap g) : splitWords (g ++ x) = splitWords x := by
  induction g with
  | nil => rfl
  | cons c g ih =>
    rw [List.cons_append, splitWords_cons_of_isBlank (hg c List.mem_cons_self), ih hg.tail]

theorem splitWords_gap (hg : Gap g) : splitWords g = [] := by
  rw [← List.append_nil g, splitWords_gap_append hg, splitWords_nil]

theorem IsWord.splitWords (hw : IsWord w) : splitWords w.toList = [w.toList] := by
  obtain ⟨hne, hletters⟩ := hw
  cases hcs : w.toList with
  | nil => exact absurd hcs hne
  | cons c cs =>
    rw [hcs] at hletters
    have hall : ∀ d ∈ cs, (!isBlank d) = true := fun d hd => by
      rw [hletters d (List.mem_cons_of_mem c hd)]
      rfl
    rw [splitWords_cons (hletters c List.mem_cons_self), List.takeWhile_eq_self_iff.mpr hall,
      List.dropWhile_eq_nil_iff.mpr hall, splitWords_nil]

/-- The words of a spaced text are those it was made of. -/
theorem splitWords_of_spaced (h : Spaced ws cs) : splitWords cs = ws.map String.toList := by
  induction h with
  | nil hg => rw [splitWords_gap hg, List.map_nil]
  | last hg hw => rw [splitWords_gap_append hg, hw.splitWords, List.map_singleton]
  | cons hg hw hb _ ih =>
    rw [splitWords_append_blank hb, splitWords_gap_append hg, hw.splitWords, ih]
    rfl

/-- A character of a spaced text is a blank or stands in a word. -/
theorem Spaced.isBlank_or_mem (h : Spaced ws cs) (hc : c ∈ cs) :
    isBlank c = true ∨ ∃ w ∈ ws, c ∈ w.toList := by
  induction h with
  | nil hg => exact Or.inl (hg c hc)
  | @last g w hg hw =>
    exact (List.mem_append.mp hc).imp (hg c) fun hmem => ⟨w, List.mem_cons_self, hmem⟩
  | @cons g w b ws rest hg hw hb hrest ih =>
    rw [List.mem_append, List.mem_append, List.mem_cons] at hc
    rcases hc with (hc | hc) | rfl | hc
    · exact Or.inl (hg c hc)
    · exact Or.inr ⟨w, List.mem_cons_self, hc⟩
    · exact Or.inl hb
    · exact (ih hc).imp_right fun ⟨v, hv, hmem⟩ => ⟨v, List.mem_cons_of_mem w hv, hmem⟩

theorem Spaced.cons_blank (h : Spaced ws cs) (hb : isBlank b = true) : Spaced ws (b :: cs) := by
  have hgap : ∀ {g : List Char}, Gap g → Gap (b :: g) := fun hg =>
    List.forall_mem_cons.mpr ⟨hb, hg⟩
  cases h with
  | nil hg => exact .nil (hgap hg)
  | last hg hw => exact .last (hgap hg) hw
  | cons hg hw hb' h => exact .cons (hgap hg) hw hb' h

/-- A text begins with a run of letters, perhaps empty, that no letter comes after. -/
theorem exists_first_run (y : List Char) : ∃ v y', y = v ++ y' ∧
    (∀ c ∈ v, isBlank c = false) ∧ ∀ c ∈ y'.head?, isBlank c = true := by
  refine ⟨y.takeWhile fun d => !isBlank d, y.dropWhile fun d => !isBlank d,
    List.takeWhile_append_dropWhile.symm, fun c hc => ?_, fun c hc => ?_⟩
  · simpa using List.mem_takeWhile_imp hc
  · have hstop := List.head?_dropWhile_not (fun d => !isBlank d) y
    rw [Option.mem_def.mp hc] at hstop
    simpa using hstop

/-- A text that begins with a letter begins with a word, and then ends or goes on with a
blank. -/
theorem exists_first_word (hc : isBlank c = false) (cs : List Char) : ∃ w rest, IsWord w ∧
    c :: cs = w.toList ++ rest ∧ splitWords (c :: cs) = w.toList :: splitWords rest ∧
      ∀ b ∈ rest.head?, isBlank b = true := by
  obtain ⟨v, rest, rfl, hv, hstop⟩ := exists_first_run cs
  have htext : (String.ofList (c :: v)).toList ++ rest = c :: (v ++ rest) := by simp
  have hw : IsWord (String.ofList (c :: v)) := by
    rw [IsWord, String.toList_ofList]
    exact ⟨List.cons_ne_nil _ _, List.forall_mem_cons.mpr ⟨hc, hv⟩⟩
  refine ⟨_, rest, hw, htext.symm, ?_, hstop⟩
  rw [← htext, splitWords_append (Or.inr hstop), hw.splitWords, List.singleton_append]

/-- Every text is its words and the blanks around them. -/
theorem spaced_splitWords : ∀ cs : List Char, Spaced ((splitWords cs).map String.ofList) cs
  | [] => by
    rw [splitWords_nil]
    exact .nil nofun
  | c :: cs => by
    cases hc : isBlank c with
    | true =>
      rw [splitWords_cons_of_isBlank hc]
      exact (spaced_splitWords cs).cons_blank hc
    | false =>
      obtain ⟨w, rest, hw, htext, hsplit, hstop⟩ := exists_first_word hc cs
      rw [hsplit, htext, List.map_cons, String.ofList_toList]
      cases rest with
      | nil =>
        rw [splitWords_nil, List.append_nil]
        exact .last (g := []) nofun hw
      | cons b rest =>
        have hb : isBlank b = true := hstop b rfl
        have hlt : rest.length < (c :: cs).length := by
          rw [htext, List.length_append, List.length_cons]
          omega
        rw [splitWords_cons_of_isBlank hb]
        exact .cons (g := []) nofun hw hb (spaced_splitWords rest)
termination_by cs => cs.length
decreasing_by
  · exact hlt
  · exact Nat.lt_succ_self _

theorem map_splitWords_of_spaced (h : Spaced ws cs) :
    (splitWords cs).map String.ofList = ws := by
  rw [splitWords_of_spaced h, List.map_map]
  simp

theorem words_eq_iff {s : String} : words s = ws ↔ Spaced ws s.toList := by
  constructor
  · rintro rfl
    exact spaced_splitWords s.toList
  · exact map_splitWords_of_spaced

instance (ws : List String) (cs : List Char) : Decidable (Spaced ws cs) :=
  decidable_of_iff (words (String.ofList cs) = ws) (by rw [words_eq_iff, String.toList_ofList])

/-! ## Joining words -/

/-- One space for every run of blanks. -/
def collapse : List Char → List Char
  | [] => []
  | c :: cs => if isBlank c then ' ' :: (collapse cs).dropWhile isBlank else c :: collapse cs

theorem collapse_cons_of_blank (hc : isBlank c = true) :
    collapse (c :: cs) = ' ' :: (collapse cs).dropWhile isBlank := if_pos hc

theorem collapse_cons (hc : isBlank c = false) : collapse (c :: cs) = c :: collapse cs := by
  rw [collapse, if_neg (by simp [hc])]

theorem collapse_append_cons (hc : isBlank c = false) :
    collapse (x ++ c :: y) = collapse x ++ c :: collapse y := by
  induction x with
  | nil => exact collapse_cons hc
  | cons d x ih =>
    rw [List.cons_append]
    cases hd : isBlank d with
    | true =>
      rw [collapse_cons_of_blank hd, collapse_cons_of_blank hd, ih, dropWhile_append_cons hc,
        List.cons_append]
    | false => rw [collapse_cons hd, collapse_cons hd, ih, List.cons_append]

theorem collapse_append_of_forall (hx : ∀ c ∈ x, isBlank c = false) :
    collapse (x ++ y) = x ++ collapse y := by
  induction x with
  | nil => rfl
  | cons c x ih =>
    rw [List.cons_append, collapse_cons (hx c List.mem_cons_self),
      ih fun d hd => hx d (List.mem_cons_of_mem c hd), List.cons_append]

/-- Only a space can be new. -/
theorem mem_collapse (h : c ∈ collapse cs) : c ∈ cs ∨ c = ' ' := by
  induction cs with
  | nil => cases h
  | cons d cs ih =>
    cases hd : isBlank d with
    | true =>
      rw [collapse_cons_of_blank hd, List.mem_cons] at h
      rcases h with rfl | h
      · exact Or.inr rfl
      · exact (ih ((List.dropWhile_suffix _).mem h)).imp_left (List.mem_cons_of_mem d)
    | false =>
      rw [collapse_cons hd, List.mem_cons] at h
      rcases h with rfl | h
      · exact Or.inl List.mem_cons_self
      · exact (ih h).imp_left (List.mem_cons_of_mem d)

theorem Gap.collapse (hg : Gap g) : Gap (collapse g) := fun c hc => by
  rcases mem_collapse hc with h | rfl
  · exact hg c h
  · exact isBlank_space

theorem dropWhile_gap_append (hg : Gap g) : (g ++ x).dropWhile isBlank = x.dropWhile isBlank :=
  List.dropWhile_append_of_pos hg

theorem dropWhile_collapse_gap_append (hg : Gap g) :
    (collapse (g ++ x)).dropWhile isBlank = (collapse x).dropWhile isBlank := by
  induction g with
  | nil => rfl
  | cons c g ih =>
    rw [List.cons_append, collapse_cons_of_blank (hg c List.mem_cons_self),
      List.dropWhile_cons_of_pos isBlank_space, List.dropWhile_idempotent, ih hg.tail]

theorem IsWord.dropWhile_append (hw : IsWord w) :
    (w.toList ++ x).dropWhile isBlank = w.toList ++ x := by
  obtain ⟨hne, hletters⟩ := hw
  cases hcs : w.toList with
  | nil => exact absurd hcs hne
  | cons c cs =>
    have hc : isBlank c = false := hletters c (hcs ▸ List.mem_cons_self)
    rw [List.cons_append, List.dropWhile_cons_of_neg (by simp [hc])]

theorem toList_intercalate_cons (h : ws ≠ []) : (" ".intercalate (w :: ws)).toList =
    w.toList ++ ' ' :: (" ".intercalate ws).toList := by
  rw [String.toList_intercalate, String.toList_intercalate, List.map_cons,
    List.intercalate_cons_of_ne_nil (by simpa using h), List.append_assoc]
  rfl

theorem mem_intercalate : ∀ {ws : List String}, w ∈ ws → c ∈ w.toList →
    c ∈ (" ".intercalate ws).toList
  | [v], hw, hc => by
    rw [String.intercalate_singleton, ← List.mem_singleton.mp hw]
    exact hc
  | v :: u :: ws, hw, hc => by
    rw [toList_intercalate_cons (List.cons_ne_nil u ws), List.mem_append]
    rcases List.mem_cons.mp hw with rfl | hw
    · exact Or.inl hc
    · exact Or.inr (List.mem_cons_of_mem _ (mem_intercalate hw hc))

/-- Words that are joined with single spaces are spaced. -/
theorem spaced_intercalate : ∀ {ws : List String}, (∀ w ∈ ws, IsWord w) →
    Spaced ws (" ".intercalate ws).toList
  | [], _ => .nil nofun
  | [w], h => by
    have hlast := Spaced.last (g := []) nofun (h w List.mem_cons_self)
    simpa using hlast
  | w :: v :: ws, h => by
    have hrest := spaced_intercalate fun u hu => h u (List.mem_cons_of_mem w hu)
    rw [toList_intercalate_cons (List.cons_ne_nil v ws)]
    exact .cons (g := []) nofun (h w List.mem_cons_self) isBlank_space hrest

/-- The blanks before the first word apart, a collapsed text is its words with a space
between two of them, and perhaps one after the last. -/
theorem exists_dropWhile_collapse (h : Spaced ws cs) : ∃ g, Gap g ∧
    (collapse cs).dropWhile isBlank = (" ".intercalate ws).toList ++ g := by
  induction h with
  | nil hg =>
    exact ⟨[], nofun, List.dropWhile_eq_nil_iff.mpr hg.collapse⟩
  | last hg hw =>
    refine ⟨[], nofun, ?_⟩
    have hcollapse := collapse_append_of_forall (y := []) hw.2
    rw [List.append_nil] at hcollapse
    rw [dropWhile_collapse_gap_append hg, hcollapse, hw.dropWhile_append]
    simp [collapse]
  | @cons g w b ws rest hg hw hb hrest ih =>
    obtain ⟨g', hg', hdrop⟩ := ih
    rw [List.append_assoc, dropWhile_collapse_gap_append hg, collapse_append_of_forall hw.2,
      hw.dropWhile_append, collapse_cons_of_blank hb, hdrop]
    rcases eq_or_ne ws [] with rfl | hne
    · exact ⟨' ' :: g', List.forall_mem_cons.mpr ⟨isBlank_space, hg'⟩, by simp⟩
    · exact ⟨g', hg', by rw [toList_intercalate_cons hne, List.append_assoc, List.cons_append]⟩

/-! ### Trimming -/

theorem rdropWhile_append_gap (hg : Gap g) :
    (x ++ g).rdropWhile isBlank = x.rdropWhile isBlank := by
  have hrev : Gap g.reverse := fun c hc => hg c (List.mem_reverse.mp hc)
  rw [List.rdropWhile, List.reverse_append, dropWhile_gap_append hrev, List.rdropWhile]

/-- Words that are joined end in a letter. -/
theorem exists_intercalate_concat : ∀ {ws : List String}, (∀ w ∈ ws, IsWord w) → ws ≠ [] →
    ∃ init c, (" ".intercalate ws).toList = init ++ [c] ∧ isBlank c = false
  | [w], h, _ => by
    obtain ⟨hne, hletters⟩ := h w List.mem_cons_self
    rcases List.eq_nil_or_concat w.toList with hnil | ⟨init, c, hinit⟩
    · exact absurd hnil hne
    · refine ⟨init, c, ?_, hletters c (by simp [hinit])⟩
      rw [String.toList_intercalate, List.map_singleton, List.intercalate_singleton, hinit,
        List.concat_eq_append]
  | w :: v :: ws, h, _ => by
    have hne : v :: ws ≠ [] := List.cons_ne_nil v ws
    obtain ⟨init, c, hinit, hc⟩ :=
      exists_intercalate_concat (fun u hu => h u (List.mem_cons_of_mem w hu)) hne
    refine ⟨w.toList ++ ' ' :: init, c, ?_, hc⟩
    rw [toList_intercalate_cons hne, hinit, List.append_assoc, List.cons_append]

theorem Spaced.isWord (h : Spaced ws cs) : ∀ w ∈ ws, IsWord w := by
  induction h with
  | nil => nofun
  | last _ hw => exact List.forall_mem_singleton.mpr hw
  | cons _ hw _ _ ih => exact List.forall_mem_cons.mpr ⟨hw, ih⟩

/-- A text that is collapsed and trimmed is its words, joined with single spaces. -/
theorem trim_collapse (h : Spaced ws cs) : trim (collapse cs) = (" ".intercalate ws).toList := by
  obtain ⟨g, hg, hdrop⟩ := exists_dropWhile_collapse h
  have htrim : trim (collapse cs) = ((" ".intercalate ws).toList ++ g).rdropWhile isBlank :=
    congrArg (List.rdropWhile isBlank) hdrop
  rw [htrim, rdropWhile_append_gap hg]
  rcases eq_or_ne ws [] with rfl | hne
  · rfl
  · obtain ⟨init, c, hinit, hc⟩ := exists_intercalate_concat h.isWord hne
    rw [hinit, List.rdropWhile_concat_neg _ _ _ (by simp [hc])]

end TableEngine.Text
