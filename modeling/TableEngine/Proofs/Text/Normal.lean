import TableEngine.Proofs.Text.Lines
import TableEngine.Proofs.Text.Tidy
import Mathlib.Data.List.Chain

/-!
# Normal lines

A text is normal if its only blanks are spaces, none of them at an end and no two of them side
by side (`IsNormal`). The words of a line joined by single spaces are normal
(`isNormal_intercalate`), and a normal text is left as it is (`normalLine_eq_self`). So writing
the lines of a text anew, each with a line feed after it, changes nothing the second time
(`normalLines_canonical`).

The words of a line are found in another way too: cut it at every blank, and keep the parts
that are not empty (`words_eq_parts`).
-/

namespace TableEngine.Text

variable {g x y cs : List Char} {b c : Char} {w s : String} {ws : List String}

/-! ## Parts between blanks -/

/-- The parts of a text between its blanks, without the empty ones. -/
def parts (cs : List Char) : List (List Char) :=
  (cs.splitOnP isBlank).filter fun part => !part.isEmpty

/-- A text is cut at a blank. -/
theorem parts_append_blank (hb : isBlank b = true) : parts (x ++ b :: y) = parts x ++ parts y := by
  rw [parts, List.splitOnP_append_cons x y hb, List.filter_append]
  rfl

theorem parts_gap_append (hg : Gap g) : parts (g ++ x) = parts x := by
  induction g with
  | nil => rfl
  | cons b g ih =>
    have hcut := parts_append_blank (x := []) (y := g ++ x) (hg b List.mem_cons_self)
    rw [List.cons_append, ← ih hg.tail]
    exact hcut

theorem parts_of_isWord (hw : IsWord w) : parts w.toList = [w.toList] := by
  rw [parts, List.splitOnP_eq_singleton hw.2]
  simp [hw.1]

theorem parts_of_spaced (h : Spaced ws cs) : parts cs = ws.map String.toList := by
  induction h with
  | @nil g hg =>
    have hgap := parts_gap_append (x := []) hg
    rw [List.append_nil] at hgap
    exact hgap
  | last hg hw => rw [parts_gap_append hg, parts_of_isWord hw, List.map_singleton]
  | cons hg hw hb _ ih =>
    rw [parts_append_blank hb, parts_gap_append hg, parts_of_isWord hw, ih]
    rfl

theorem words_eq_parts (s : String) : words s = (parts s.toList).map String.ofList := by
  rw [parts_of_spaced (spaced_splitWords s.toList), List.map_map, words]
  simp

/-! ## Normal texts -/

/-- No blank but spaces, no blank after a blank, and no blank at either end. -/
structure IsNormal (s : String) : Prop where
  eq_space : ∀ c ∈ s.toList, isBlank c = true → c = ' '
  single : s.toList.IsChain fun c d => isBlank c = true → isBlank d = false
  head : ∀ c ∈ s.toList.head?, isBlank c = false
  last : ∀ c ∈ s.toList.getLast?, isBlank c = false

/-- No normal text has a blank other than a space. -/
theorem IsNormal.not_mem (h : IsNormal s) (hblank : isBlank c = true) (hc : c ≠ ' ') :
    c ∉ s.toList := fun hmem => hc (h.eq_space c hmem hblank)

theorem isBlank_of_mem_head?_intercalate (h : ∀ w ∈ ws, IsWord w) :
    ∀ c ∈ (" ".intercalate ws).toList.head?, isBlank c = false := by
  cases ws with
  | nil => nofun
  | cons w ws =>
    obtain ⟨hne, hletters⟩ := h w List.mem_cons_self
    obtain ⟨d, front, hw⟩ := List.exists_cons_of_ne_nil hne
    obtain ⟨rest, hrest⟩ : ∃ rest, (" ".intercalate (w :: ws)).toList = w.toList ++ rest := by
      rcases eq_or_ne ws [] with rfl | hws
      · exact ⟨[], by simp⟩
      · exact ⟨_, toList_intercalate_cons hws⟩
    rw [hrest, hw]
    rintro c ⟨⟩
    exact hletters d (hw ▸ List.mem_cons_self)

theorem isBlank_of_mem_getLast?_intercalate (h : ∀ w ∈ ws, IsWord w) :
    ∀ c ∈ (" ".intercalate ws).toList.getLast?, isBlank c = false := by
  rcases eq_or_ne ws [] with rfl | hne
  · nofun
  · obtain ⟨init, d, hinit, hd⟩ := exists_intercalate_concat h hne
    rw [hinit, List.getLast?_concat]
    rintro c ⟨⟩
    exact hd

theorem isChain_of_isWord (hw : IsWord w) :
    w.toList.IsChain fun c d => isBlank c = true → isBlank d = false :=
  List.isChain_iff_getElem.mpr fun _ _ _ => hw.2 _ (List.getElem_mem _)

theorem isChain_intercalate : ∀ {ws : List String}, (∀ w ∈ ws, IsWord w) →
    (" ".intercalate ws).toList.IsChain fun c d => isBlank c = true → isBlank d = false
  | [], _ => .nil
  | [w], h => by
    rw [String.intercalate_singleton]
    exact isChain_of_isWord (h w List.mem_cons_self)
  | w :: v :: ws, h => by
    obtain ⟨hw, hrest⟩ := List.forall_mem_cons.mp h
    rw [toList_intercalate_cons (List.cons_ne_nil v ws)]
    refine (isChain_of_isWord hw).append ((isChain_intercalate hrest).cons ?_) ?_
    · exact fun c hc _ => isBlank_of_mem_head?_intercalate hrest c hc
    -- the space is not beside another, since a word ends in a letter
    · intro c hc d _ hblank
      rw [hw.2 c (List.mem_of_mem_getLast? hc)] at hblank
      cases hblank

/-- Words joined by single spaces are normal. -/
theorem isNormal_intercalate (h : ∀ w ∈ ws, IsWord w) : IsNormal (" ".intercalate ws) where
  eq_space c hc hblank := by
    rcases mem_or_exists_of_mem_intercalate hc with hspace | ⟨w, hw, hmem⟩
    · simpa using hspace
    · rw [(h w hw).2 c hmem] at hblank
      cases hblank
  single := isChain_intercalate h
  head := isBlank_of_mem_head?_intercalate h
  last := isBlank_of_mem_getLast?_intercalate h

theorem isNormal_normalLine (s : String) : IsNormal (normalLine s) :=
  isNormal_intercalate (spaced_splitWords s.toList).isWord

theorem collapse_eq_self (hspace : ∀ c ∈ cs, isBlank c = true → c = ' ')
    (hsingle : cs.IsChain fun c d => isBlank c = true → isBlank d = false) : collapse cs = cs := by
  induction cs with
  | nil => rfl
  | cons c cs ih =>
    obtain ⟨hhead, htail⟩ := List.isChain_cons.mp hsingle
    have ih := ih (fun d hd => hspace d (List.mem_cons_of_mem c hd)) htail
    cases hc : isBlank c with
    | false => rw [collapse_cons hc, ih]
    | true =>
      have hletter : cs.dropWhile isBlank = cs := by
        cases cs with
        | nil => rfl
        | cons d cs => rw [List.dropWhile_cons_of_neg (by simp [hhead d rfl hc])]
      rw [collapse_cons_of_blank hc, ih, hletter, hspace c List.mem_cons_self hc]

theorem trim_eq_self (hhead : ∀ c ∈ cs.head?, isBlank c = false)
    (hlast : ∀ c ∈ cs.getLast?, isBlank c = false) : trim cs = cs := by
  have hfront : cs.dropWhile isBlank = cs := by
    cases cs with
    | nil => rfl
    | cons c cs => rw [List.dropWhile_cons_of_neg (by simp [hhead c rfl])]
  have hback : cs.rdropWhile isBlank = cs :=
    List.rdropWhile_eq_self_iff.mpr fun hne => by
      simp [hlast _ (List.getLast?_eq_getLast_of_ne_nil hne)]
  rw [trim, hfront]
  exact hback

/-- A normal text is its words joined by single spaces. -/
theorem normalLine_eq_self (h : IsNormal s) : normalLine s = s := by
  have hjoined := trim_collapse (spaced_splitWords s.toList)
  rw [collapse_eq_self h.eq_space h.single, trim_eq_self h.head h.last] at hjoined
  exact String.toList_injective hjoined.symm

/-! ## Normal lines -/

/-- Lines that are normal are found again if each has a line feed after it. -/
theorem lined_join : ∀ {ls : List String}, (∀ line ∈ ls, IsNormal line) →
    Lined ls (String.join (ls.map (· ++ "\n"))).toList
  | [], _ => .nil
  | line :: ls, h => by
    obtain ⟨hline, hrest⟩ := List.forall_mem_cons.mp h
    have htext : (String.join ((line :: ls).map (· ++ "\n"))).toList =
        line.toList ++ '\n' :: (String.join (ls.map (· ++ "\n"))).toList := by
      rw [List.map_cons, String.join_cons]
      simp
    have hreturn : '\r' ∉ line.toList := hline.not_mem (by decide) (by decide)
    rw [htext]
    exact .feed (hline.not_mem (by decide) (by decide))
      (fun hlast => hreturn (List.mem_of_getLast? hlast)) (lined_join hrest)

/-- A text has one entry for each of its lines, which are given by the line feeds with the
carriage returns before them. The entry is the words of the line joined by single spaces, whether
the words are read or are the parts between the blanks. It has no other blank, and the entries as
the lines of a text have themselves as entries. -/
theorem normalLines_canonical (raw : String) :
    (∀ ls, lines raw = ls ↔ Lined ls raw.toList) ∧
    (normalLines raw = (lines raw).map fun line => " ".intercalate (words line)) ∧
    (∀ line, words line = (parts line.toList).map String.ofList) ∧
    (∀ entry ∈ normalLines raw, IsNormal entry) ∧
    normalLines (String.join ((normalLines raw).map (· ++ "\n"))) = normalLines raw := by
  have hnormal : ∀ entry ∈ normalLines raw, IsNormal entry :=
    List.forall_mem_map.mpr fun line _ => isNormal_normalLine line
  refine ⟨fun ls => lines_eq_iff, rfl, words_eq_parts, hnormal, ?_⟩
  have hlines := lines_eq_iff.mpr (lined_join hnormal)
  rw [normalLines, hlines, List.map_congr_left fun entry hentry =>
    normalLine_eq_self (hnormal entry hentry), List.map_id']

end TableEngine.Text
