import TableEngine.Proofs.Statement.Items
import Mathlib

/-!
# Reading undoes writing

A text that writes a printable statement is read as that statement
(`Statement.ofText_of_prints`), whichever of the spellings and spacings it uses.

The words of the text are those it was written with (`Text.words_eq_iff`). A keyword in any
case compares like the keyword itself (`sameWord_of_spells`). The scan of a filter takes one
entry after the other, whatever the word before it (`Filter.scan_of_written`) : a connective
is one word, a column is passed over since it reads neither as a connective nor as an
operator, and the literal goes with its operator unread. A list is read by
`items_of_printsList`.
-/

namespace TableEngine

open Text

/-! ## Keywords -/

section Keywords

variable {w keyword : String}

theorem folded_eq_iff {v : String} : folded w = folded v ↔
    List.Forall₂ (fun c d => c.toLower = d.toLower) w.toList v.toList := by
  rw [folded, folded, ← List.forall₂_eq_eq_eq, List.forall₂_map_left_iff,
    List.forall₂_map_right_iff]

/-- A keyword in any case compares like the keyword. -/
theorem sameWord_of_spells (h : Spells w keyword) (v : String) :
    sameWord w v = sameWord keyword v := by
  have hfolded : folded w = folded keyword := by
    refine folded_eq_iff.mpr (h.imp fun c k hck => ?_)
    rcases hck with rfl | rfl
    · rfl
    · exact Char.toLower_toLower_eq_toLower k
  rw [sameWord, hfolded, ← sameWord]

theorem eq_or_eq_toLower {c k : Char} (hk : k.isUpper) (h : c.toLower = k.toLower) :
    c = k ∨ c = k.toLower := by
  by_cases hc : c.isUpper
  · have hupper := congrArg Char.toUpper h
    rw [Char.toUpper_toLower_eq_toUpper, Char.toUpper_toLower_eq_toUpper,
      Char.toUpper_eq_of_not_isLower (Char.not_isLower_of_isUpper hc),
      Char.toUpper_eq_of_not_isLower (Char.not_isLower_of_isUpper hk)] at hupper
    exact Or.inl hupper
  · rw [Char.toLower_eq_of_not_isUpper hc] at h
    exact Or.inr h

/-- Only a keyword in some case compares like one of capital letters. -/
theorem spells_of_sameWord (hupper : ∀ k ∈ keyword.toList, k.isUpper)
    (h : sameWord w keyword = true) : Spells w keyword := by
  have hchars := folded_eq_iff.mp (sameWord_iff.mp h)
  have hboth := (List.forall₂_and_left keyword.toList w.toList).mpr ⟨hupper, hchars.flip⟩
  exact hboth.flip.imp fun c k hck => eq_or_eq_toLower hck.1 hck.2

theorem dropKeyword_of_spells (h : Spells w keyword) (kind : StatementKind) (rest : List String) :
    Statement.dropKeyword kind keyword (w :: rest) = .ok rest := by
  rw [Statement.dropKeyword, sameWord_of_spells h, sameWord_refl, if_pos rfl]

end Keywords

/-! ## Filters -/

theorem Connective.ofWord?_of_spells {c : Connective} {w : String} (h : Spells w c.word) :
    ofWord? w = some c := by
  rw [ofWord?, sameWord_of_spells h, sameWord_of_spells h]
  cases c <;> decide

theorem Connective.ofWord?_eq_none {w : String} (h : ∀ c : Connective, ¬Spells w c.word) :
    ofWord? w = none := by
  have hand : ¬sameWord w "AND" = true := fun hw => h and (spells_of_sameWord (by simp [word]) hw)
  have hor : ¬sameWord w "OR" = true := fun hw => h or (spells_of_sameWord (by simp [word]) hw)
  rw [ofWord?, if_neg hand, if_neg hor]

theorem Comparison.ofSymbol?_of_mem {c : Comparison} {operator : String}
    (h : operator ∈ c.spellings) :
    ofSymbol? operator = some c ∧ Connective.ofWord? operator = none := by
  have hall : ∀ operator ∈ c.spellings,
      ofSymbol? operator = some c ∧ Connective.ofWord? operator = none := by
    cases c <;> decide
  exact hall operator h

theorem Comparison.mem_spellings_of_ofSymbol? {c : Comparison} {w : String}
    (h : ofSymbol? w = some c) : w ∈ c.spellings := by
  unfold ofSymbol? at h
  split at h <;> cases h <;> decide

theorem Comparison.ofSymbol?_eq_none {w : String} (h : ∀ c : Comparison, w ∉ c.spellings) :
    ofSymbol? w = none :=
  Option.eq_none_iff_forall_ne_some.mpr fun c hw => h c (mem_spellings_of_ofSymbol? hw)

namespace Filter

variable {f : Filter} {ws : List String}

/-- The scan finds the entries that were written, whatever word comes before them. -/
theorem scan_of_written (kind : StatementKind) (h : Written f ws) (hf : f.Printable) :
    ∀ previous, scan kind previous ws = .ok f := by
  induction h with
  | nil => exact fun _ => rfl
  | @join c w f ws hw hwritten ih =>
    intro previous
    rw [scan, Connective.ofWord?_of_spells hw]
    show (scan kind (some w) ws).map (.join c :: ·) = .ok (.join c :: f)
    rw [ih hf.tail]
    rfl
  | @test c operator f ws hoperator hwritten ih =>
    intro previous
    have hc := hf.conditions c List.mem_cons_self
    obtain ⟨hsymbol, hword⟩ := Comparison.ofSymbol?_of_mem hoperator
    -- the column is passed over, and the operator finds it as the word before
    rw [scan, Connective.ofWord?_eq_none hc.not_connective,
      Comparison.ofSymbol?_eq_none hc.not_operator]
    show scan kind (some c.column) (operator :: (c.literal.toList ++ ws)) = _
    rw [scan, hsymbol, hword]
    obtain ⟨column, comparison, _ | literal⟩ := c
    · -- without a literal this is the last entry
      obtain rfl : f = [] := by
        by_contra hne
        exact hf.complete _ (by rw [List.dropLast_cons_of_ne_nil hne]; exact List.mem_cons_self) rfl
      cases hwritten
      rfl
    · show (scan kind (some literal) ws).map (.test ⟨column, comparison, some literal⟩ :: ·) = _
      rw [ih hf.tail]
      rfl

theorem whereClause_of_clause (kind : StatementKind) (h : Clause f ws) (hf : f.Printable) :
    Statement.whereClause kind ws = .ok f := by
  cases h with
  | absent => rfl
  | @present w _ ws hne hw hwritten =>
    rw [Statement.whereClause, dropKeyword_of_spells hw]
    · exact scan_of_written kind hwritten hf none
    · nofun

end Filter

/-! ## Statements -/

/-- A list does not run into the word before it. -/
theorem map_splitWords_append_list {ws items : List String} {cs list : List Char}
    (h : Spaced ws cs) (hlist : PrintsList items list) :
    (splitWords (cs ++ list)).map String.ofList =
      ws ++ (splitWords list).map String.ofList := by
  obtain ⟨hblank, -, -, -⟩ := hlist
  rw [splitWords_append_blank hblank, List.map_append, map_splitWords_of_spaced h,
    splitWords_cons_of_isBlank hblank]

namespace Statement

section Words

variable {command w v table : String} {words list : List String} {filter : Filter}

/-- The first word may be written in any case. -/
theorem ofWords_of_spells {keyword : String} (h : Spells command keyword)
    (hkeyword : keyword ∈ ["CREATE", "INSERT", "SELECT", "UPDATE", "DELETE"]) :
    ofWords (command :: words) = ofWords (keyword :: words) := by
  simp only [ofWords, sameWord_of_spells h]
  simp only [List.mem_cons, List.not_mem_nil, or_false] at hkeyword
  rcases hkeyword with rfl | rfl | rfl | rfl | rfl <;> rfl

theorem ofWords_create (hcommand : Spells command "CREATE") (hw : Spells w "TABLE")
    (hlist : items words = list) (hne : list ≠ []) :
    ofWords (command :: w :: table :: words) = .ok (.create table list) := by
  obtain ⟨item, rest, rfl⟩ := List.exists_cons_of_ne_nil hne
  rw [ofWords_of_spells hcommand (by decide)]
  show createOf (w :: table :: words) = _
  simp only [createOf, dropKeyword_of_spells hw, takeWord, bind, Except.bind, hlist]

theorem ofWords_insert (hcommand : Spells command "INSERT") (hw : Spells w "INTO")
    (hv : Spells v "VALUES") (hlist : items words = list) (hne : list ≠ []) :
    ofWords (command :: w :: table :: v :: words) = .ok (.insert table list) := by
  obtain ⟨item, rest, rfl⟩ := List.exists_cons_of_ne_nil hne
  rw [ofWords_of_spells hcommand (by decide)]
  show insertOf (w :: table :: v :: words) = _
  simp only [insertOf, dropKeyword_of_spells hw, dropKeyword_of_spells hv, takeWord, bind,
    Except.bind, hlist]

theorem ofWords_select (hcommand : Spells command "SELECT") (hw : Spells w "FROM")
    (hwhere : whereClause .select words = .ok filter) :
    ofWords (command :: "*" :: w :: table :: words) = .ok (.select table filter) := by
  rw [ofWords_of_spells hcommand (by decide)]
  show selectOf ("*" :: w :: table :: words) = _
  simp only [selectOf, dropKeyword_of_spells (spells_self "*"), dropKeyword_of_spells hw, takeWord,
    bind, Except.bind, hwhere]

theorem ofWords_update {column value : String} (hcommand : Spells command "UPDATE")
    (hw : Spells w "SET") (hwhere : whereClause .update words = .ok filter) :
    ofWords (command :: table :: w :: column :: "=" :: value :: words) =
      .ok (.update table column value filter) := by
  rw [ofWords_of_spells hcommand (by decide)]
  show updateOf (table :: w :: column :: "=" :: value :: words) = _
  simp only [updateOf, dropKeyword_of_spells hw, dropKeyword_of_spells (spells_self "="), takeWord,
    bind, Except.bind, hwhere]

theorem ofWords_delete (hcommand : Spells command "DELETE") (hw : Spells w "FROM")
    (hwhere : whereClause .delete words = .ok filter) :
    ofWords (command :: w :: table :: words) = .ok (.delete table filter) := by
  rw [ofWords_of_spells hcommand (by decide)]
  show deleteOf (w :: table :: words) = _
  simp only [deleteOf, dropKeyword_of_spells hw, takeWord, bind, Except.bind, hwhere]

end Words

/-- A text that writes a printable statement is read as the statement. -/
theorem ofText_eq_of_prints {st : Statement} {text : String} (h : st.Printable)
    (hprints : st.Prints text.toList) : ofText text = .ok st := by
  rw [ofText, words]
  generalize text.toList = cs at hprints
  cases hprints with
  | create hcommand hw hcs hlist =>
    rw [map_splitWords_append_list hcs hlist]
    exact ofWords_create hcommand hw (items_of_printsList hlist h.2) h.2.1
  | insert hcommand hw hv hcs hlist =>
    rw [map_splitWords_append_list hcs hlist]
    exact ofWords_insert hcommand hw hv (items_of_printsList hlist h.2) h.2.1
  | select hcommand hw hclause hcs =>
    rw [map_splitWords_of_spaced hcs]
    exact ofWords_select hcommand hw (Filter.whereClause_of_clause .select hclause h.2)
  | update hcommand hw hclause hcs =>
    rw [map_splitWords_of_spaced hcs]
    exact ofWords_update hcommand hw (Filter.whereClause_of_clause .update hclause h.2.2.2)
  | delete hcommand hw hclause hcs =>
    rw [map_splitWords_of_spaced hcs]
    exact ofWords_delete hcommand hw (Filter.whereClause_of_clause .delete hclause h.2)

/-- Every printable statement has a text that writes it, and every text that does is read
as the statement. -/
theorem ofText_of_prints {st : Statement} (h : st.Printable) : st.Prints st.text.toList ∧
    ∀ text : String, st.Prints text.toList → ofText text = .ok st :=
  ⟨prints_text h, fun _ hprints => ofText_eq_of_prints h hprints⟩

/-- A filter with a connective in front, with literals that look like a connective and like
an operator, with two comparisons side by side, and without the last literal. -/
theorem ofText_of_prints_select :
    let st : Statement := .select "t" [.join .or, .test ⟨"a", .unequal, some "AND"⟩,
      .test ⟨"b", .equal, some "="⟩, .join .and, .test ⟨"c", .less, none⟩]
    let text := "\tselect *  From t\nwhere oR a <> AND b = = and c <"
    st.Printable ∧ st.Prints text.toList ∧ ofText text = .ok st := by
  intro st text
  have hprintable : st.Printable := by
    refine ⟨by decide, ⟨fun c hc => ?_, fun c hc => ?_⟩⟩
    · have hc : c = ⟨"a", .unequal, some "AND"⟩ ∨ c = ⟨"b", .equal, some "="⟩ ∨
          c = ⟨"c", .less, none⟩ := by simpa using hc
      rcases hc with rfl | rfl | rfl
      all_goals
        refine ⟨by decide, fun join => ?_, fun comparison => ?_, by simp <;> decide⟩
        · cases join <;> decide
        · cases comparison <;> decide
    · have hc : c = ⟨"a", .unequal, some "AND"⟩ ∨ c = ⟨"b", .equal, some "="⟩ := by
        simpa using hc
      rcases hc with rfl | rfl <;> decide
  have hwritten : Filter.Written [.join .or, .test ⟨"a", .unequal, some "AND"⟩,
      .test ⟨"b", .equal, some "="⟩, .join .and, .test ⟨"c", .less, none⟩]
      ["oR", "a", "<>", "AND", "b", "=", "=", "and", "c", "<"] :=
    .join (by decide) (.test (by decide) (.test (by decide) (.join (by decide)
      (.test (by decide) .nil))))
  have hspaced : Spaced ["select", "*", "From", "t", "where", "oR", "a", "<>", "AND", "b", "=",
      "=", "and", "c", "<"] text.toList := by decide +kernel
  have hprints : st.Prints text.toList :=
    .select (by decide) (by decide) (.present nofun (by decide) hwritten) hspaced
  exact ⟨hprintable, hprints, (ofText_of_prints hprintable).2 text hprints⟩

end Statement

end TableEngine
