import TableEngine.Statement.Grammar
import TableEngine.Proofs.Statement.Printing

/-!
# Reading the items of a list

The words of a list in parentheses do not end where its items do : `(a b,c` are two words
and two items, cut at different places. The reader joins the words with spaces, deletes the
parentheses, splits at the commas and trims. What it joins is the whole text, collapsed and
trimmed (`Text.trim_collapse`); this splits at the parentheses and the commas of the text
(`Text.collapse_append_cons`), and between two of them are the words of one item.

`items_of_printsList` : from the words of a list that is written as `PrintsList` says, the
reader takes the items that were written.
-/

namespace TableEngine

open Text

variable {x y cs body : List Char} {list : List String} {item : String} {c : Char}

/-! ## Splitting at commas -/

theorem splitCommas_append : ∀ {x : List Char}, ',' ∉ x →
    splitCommas (x ++ ',' :: y) = x :: splitCommas y
  | [], _ => rfl
  | c :: x, h => by
    rw [List.mem_cons, not_or] at h
    rw [List.cons_append, splitCommas, if_neg (by simpa using Ne.symm h.1), splitCommas_append h.2]

theorem splitCommas_of_not_mem : ∀ {x : List Char}, ',' ∉ x → splitCommas x = [x]
  | [], _ => rfl
  | c :: x, h => by
    rw [List.mem_cons, not_or] at h
    rw [splitCommas, if_neg (by simpa using Ne.symm h.1), splitCommas_of_not_mem h.2]

/-! ## The characters of a list -/

theorem isPlain_of_isBlank (h : isBlank c = true) : IsPlain c := by
  refine ⟨?_, ?_, ?_⟩ <;> rintro rfl <;> exact absurd h (by decide)

theorem isPlain_of_mem_collapse (h : ∀ c ∈ cs, IsPlain c) : ∀ c ∈ collapse cs, IsPlain c := by
  intro c hc
  rcases mem_collapse hc with hc | rfl
  · exact h c hc
  · exact isPlain_of_isBlank isBlank_space

/-- What writes an item has the characters of the item and blanks. -/
theorem IsItem.isPlain {ws : List String} (hitem : IsItem (" ".intercalate ws))
    (h : Spaced ws cs) : ∀ c ∈ collapse cs, IsPlain c := by
  refine isPlain_of_mem_collapse fun c hc => ?_
  rcases h.isBlank_or_mem hc with hblank | ⟨w, hw, hmem⟩
  · exact isPlain_of_isBlank hblank
  · exact hitem.plain c (mem_intercalate hw hmem)

section Items

variable (h : PrintsItems list body) (hitems : ∀ item ∈ list, IsItem item)
include h hitems

/-- There is a comma between two items and nowhere else. -/
theorem map_trim_splitCommas : (splitCommas (collapse body)).map trim = list.map String.toList := by
  induction h with
  | @one ws cs hcs =>
    have hplain := (hitems _ List.mem_cons_self).isPlain hcs
    rw [splitCommas_of_not_mem fun hc => (hplain ',' hc).2.2 rfl, List.map_singleton,
      trim_collapse hcs, List.map_singleton]
  | @cons ws list cs rest hcs hrest ih =>
    obtain ⟨hitem, hitems⟩ := List.forall_mem_cons.mp hitems
    have hplain := hitem.isPlain hcs
    rw [collapse_append_cons (by decide), splitCommas_append fun hc => (hplain ',' hc).2.2 rfl,
      List.map_cons, trim_collapse hcs, ih hitems, List.map_cons]

/-- There is no parenthesis among the items. -/
theorem not_paren_of_mem_collapse : ∀ c ∈ collapse body, c ≠ '(' ∧ c ≠ ')' := by
  induction h with
  | @one ws cs hcs =>
    intro c hc
    have hplain := (hitems _ List.mem_cons_self).isPlain hcs c hc
    exact ⟨hplain.1, hplain.2.1⟩
  | @cons ws list cs rest hcs hrest ih =>
    obtain ⟨hitem, hitems⟩ := List.forall_mem_cons.mp hitems
    intro c hc
    rw [collapse_append_cons (by decide), List.mem_append, List.mem_cons] at hc
    rcases hc with hc | rfl | hc
    · have hplain := hitem.isPlain hcs c hc
      exact ⟨hplain.1, hplain.2.1⟩
    · decide
    · exact ih hitems c hc

end Items

/-! ## The whole list -/

/-- The blanks outside the parentheses go. -/
theorem trim_collapse_parens {before after : List Char} (hbefore : Gap before)
    (hafter : Gap after) : trim (collapse (before ++ '(' :: (body ++ ')' :: after))) =
      '(' :: (collapse body ++ [')']) := by
  have hdrop : (collapse (before ++ '(' :: (body ++ ')' :: after))).dropWhile isBlank =
      ('(' :: collapse body ++ [')']) ++ collapse after := by
    rw [dropWhile_collapse_gap_append hbefore, collapse_cons (by decide),
      collapse_append_cons (by decide), List.dropWhile_cons_of_neg (by decide)]
    simp
  have htrim : trim (collapse (before ++ '(' :: (body ++ ')' :: after))) =
      (('(' :: collapse body ++ [')']) ++ collapse after).rdropWhile isBlank :=
    congrArg (List.rdropWhile isBlank) hdrop
  rw [htrim, rdropWhile_append_gap hafter.collapse, List.rdropWhile_concat_neg _ _ _ (by decide),
    List.cons_append]

/-- The reader of a list sees the whole text, collapsed and trimmed. -/
theorem toList_intercalate_splitWords (cs : List Char) :
    (" ".intercalate ((splitWords cs).map String.ofList)).toList = trim (collapse cs) :=
  (trim_collapse (spaced_splitWords cs)).symm

theorem IsItem.isEmpty (h : IsItem item) : item.toList.isEmpty = false := by
  obtain ⟨ws, hne, hws, rfl⟩ := h.words
  obtain ⟨init, c, hinit, -⟩ := exists_intercalate_concat hws hne
  simp [hinit]

theorem filter_parens (h : ∀ c ∈ x, c ≠ '(' ∧ c ≠ ')') :
    (('(' :: (x ++ [')'])).filter fun c => c != '(' && c != ')') = x := by
  have hkeep : (x.filter fun c => c != '(' && c != ')') = x :=
    List.filter_eq_self.mpr fun c hc => by simpa using h c hc
  simp [List.filter_append, hkeep]

/-- The items of a list that is written are read. -/
theorem items_of_printsList (h : PrintsList list cs) (hlist : IsList list) :
    items ((splitWords cs).map String.ofList) = list := by
  obtain ⟨hblank, hbefore, hprints, hafter⟩ := h
  obtain ⟨-, hitems⟩ := hlist
  have hkeep : ∀ cs ∈ list.map String.toList, (!cs.isEmpty) = true := by
    intro cs hcs
    obtain ⟨item, hitem, rfl⟩ := List.mem_map.mp hcs
    simp [(hitems item hitem).isEmpty]
  rw [splitWords_cons_of_isBlank hblank, items, toList_intercalate_splitWords,
    trim_collapse_parens hbefore hafter, filter_parens (not_paren_of_mem_collapse hprints hitems),
    map_trim_splitCommas hprints hitems, List.filter_eq_self.mpr hkeep, List.map_map]
  simp

/-- Blanks are free around an item, and several of them stand for one inside it. -/
example : items (words "( 1 ,New   York,\tx\n) ") = ["1", "New York", "x"] := by decide +kernel

end TableEngine
