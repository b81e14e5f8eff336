import TableEngine.Statement.Basic
import TableEngine.Proofs.Text.Spacing
import Mathlib.Data.List.Forall2

/-!
# Writing statements

`Statement.Prints st cs` : the characters `cs` write the statement `st`. Keywords may be
written in upper and lower case letters, the operator `!=` also as `<>`, and any blanks may
stand between words, around the items of a list and at both ends of the text. There is one
pair of parentheses, around a list, with a blank before it, and no `WHERE` without
an entry after it.

Not every statement can be written. `Statement.Printable` asks for words where a name or
a value stands alone, and for items without parentheses and commas in a list. A column of a
filter must not read as a connective or as an operator; a literal may. The literal of the last
comparison can be absent, but only if the text ends there.

`Statement.text` is one way to write a statement, and it writes every statement that is
printable (`Statement.prints_text`).
-/

namespace TableEngine

open Text

/-- The word is the keyword, every letter of it in upper or in lower case. -/
def Spells (w keyword : String) : Prop :=
  List.Forall₂ (fun c k => c = k ∨ c = k.toLower) w.toList keyword.toList

instance (w keyword : String) : Decidable (Spells w keyword) :=
  inferInstanceAs (Decidable (List.Forall₂ _ _ _))

/-- The operators that write a comparison. -/
def Comparison.spellings : Comparison → List String
  | unequal => ["!=", "<>"]
  | c => [c.symbol]

/-! ## Filters -/

/-- A column and a literal that can be written. -/
structure Condition.Printable (c : Condition) : Prop where
  column : IsWord c.column
  not_connective : ∀ join : Connective, ¬Spells c.column join.word
  not_operator : ∀ comparison : Comparison, c.column ∉ comparison.spellings
  literal : ∀ literal ∈ c.literal, IsWord literal

namespace Filter

structure Printable (f : Filter) : Prop where
  conditions : ∀ c, .test c ∈ f → c.Printable
  /-- Only the last entry may lack its literal. -/
  complete : ∀ c, .test c ∈ f.dropLast → c.literal ≠ none

theorem Printable.tail {t : Term} {f : Filter} (h : Printable (t :: f)) : f.Printable where
  conditions c hc := h.conditions c (List.mem_cons_of_mem t hc)
  complete c hc := by
    cases f with
    | nil => cases hc
    | cons u f => exact h.complete c (List.mem_cons_of_mem t hc)

/-- The words that write the entries, one after another. -/
inductive Written : Filter → List String → Prop
  | nil : Written [] []
  | join {c : Connective} {w : String} {f : Filter} {ws : List String} :
    Spells w c.word → Written f ws → Written (.join c :: f) (w :: ws)
  | test {c : Condition} {operator : String} {f : Filter} {ws : List String} :
    operator ∈ c.comparison.spellings → Written f ws →
      Written (.test c :: f) (c.column :: operator :: (c.literal.toList ++ ws))

/-- The words that write a filter at the end of a statement, `WHERE` included. -/
inductive Clause : Filter → List String → Prop
  | absent : Clause [] []
  | present {w : String} {f : Filter} {ws : List String} :
    f ≠ [] → Spells w "WHERE" → Written f ws → Clause f (w :: ws)

end Filter

/-! ## Lists -/

/-- Neither a parenthesis nor a comma. -/
def IsPlain (c : Char) : Prop := c ≠ '(' ∧ c ≠ ')' ∧ c ≠ ','

/-- Words with single spaces between them, and no parenthesis or comma. -/
structure IsItem (item : String) : Prop where
  words : ∃ ws, ws ≠ [] ∧ (∀ w ∈ ws, IsWord w) ∧ item = " ".intercalate ws
  plain : ∀ c ∈ item.toList, IsPlain c

/-- A column or value list that can be written. -/
def IsList (items : List String) : Prop := items ≠ [] ∧ ∀ item ∈ items, IsItem item

/-- The words of every item, and a comma between two items. -/
inductive PrintsItems : List String → List Char → Prop
  | one {ws : List String} {cs : List Char} :
    Spaced ws cs → PrintsItems [" ".intercalate ws] cs
  | cons {ws items : List String} {cs rest : List Char} :
    Spaced ws cs → PrintsItems items rest →
      PrintsItems (" ".intercalate ws :: items) (cs ++ ',' :: rest)

/-- The items in parentheses, at least one blank before them, and any blanks after. -/
inductive PrintsList : List String → List Char → Prop
  | mk {items : List String} {b : Char} {before body after : List Char} :
    isBlank b = true → Gap before → PrintsItems items body → Gap after →
      PrintsList items (b :: (before ++ '(' :: (body ++ ')' :: after)))

/-! ## Statements -/

namespace Statement

/-- The statement can be written. -/
def Printable : Statement → Prop
  | create table columns => IsWord table ∧ IsList columns
  | insert table values => IsWord table ∧ IsList values
  | select table filter => IsWord table ∧ filter.Printable
  | update table column value filter =>
    IsWord table ∧ IsWord column ∧ IsWord value ∧ filter.Printable
  | delete table filter => IsWord table ∧ filter.Printable

/-- The characters write the statement. -/
inductive Prints : Statement → List Char → Prop
  | create {command w table : String} {columns : List String} {cs list : List Char} :
    Spells command "CREATE" → Spells w "TABLE" → Spaced [command, w, table] cs →
      PrintsList columns list → Prints (.create table columns) (cs ++ list)
  | insert {command w table v : String} {values : List String} {cs list : List Char} :
    Spells command "INSERT" → Spells w "INTO" → Spells v "VALUES" →
      Spaced [command, w, table, v] cs → PrintsList values list →
        Prints (.insert table values) (cs ++ list)
  | select {command w table : String} {filter : Filter} {ws : List String} {cs : List Char} :
    Spells command "SELECT" → Spells w "FROM" → filter.Clause ws →
      Spaced (command :: "*" :: w :: table :: ws) cs → Prints (.select table filter) cs
  | update {command table w column value : String} {filter : Filter} {ws : List String}
      {cs : List Char} :
    Spells command "UPDATE" → Spells w "SET" → filter.Clause ws →
      Spaced (command :: table :: w :: column :: "=" :: value :: ws) cs →
        Prints (.update table column value filter) cs
  | delete {command w table : String} {filter : Filter} {ws : List String} {cs : List Char} :
    Spells command "DELETE" → Spells w "FROM" → filter.Clause ws →
      Spaced (command :: w :: table :: ws) cs → Prints (.delete table filter) cs

end Statement

/-! ## One way to write a statement -/

theorem spells_self (keyword : String) : Spells keyword keyword :=
  List.forall₂_same.mpr fun _ _ => Or.inl rfl

theorem Comparison.symbol_mem_spellings (c : Comparison) : c.symbol ∈ c.spellings := by
  cases c <;> decide

namespace Filter

/-- The entries as words. -/
def words : Filter → List String
  | [] => []
  | .join c :: f => c.word :: words f
  | .test c :: f => c.column :: c.comparison.symbol :: (c.literal.toList ++ words f)

/-- The filter at the end of a statement as words. -/
def clause : Filter → List String
  | [] => []
  | f => "WHERE" :: f.words

theorem written_words : ∀ f : Filter, f.Written f.words
  | [] => .nil
  | .join c :: f => .join (spells_self c.word) (written_words f)
  | .test c :: f => .test c.comparison.symbol_mem_spellings (written_words f)

theorem clause_clause : ∀ f : Filter, f.Clause f.clause
  | [] => .absent
  | t :: f => .present (List.cons_ne_nil t f) (spells_self "WHERE") (written_words (t :: f))

theorem Printable.isWord_words : ∀ {f : Filter}, f.Printable → ∀ w ∈ f.words, IsWord w
  | [], _ => nofun
  | .join c :: f, h => by
    have hword : IsWord c.word := by cases c <;> decide
    exact List.forall_mem_cons.mpr ⟨hword, h.tail.isWord_words⟩
  | .test c :: f, h => by
    have hc := h.conditions c List.mem_cons_self
    have hsymbol : IsWord c.comparison.symbol := by cases c.comparison <;> decide
    refine List.forall_mem_cons.mpr ⟨hc.column, List.forall_mem_cons.mpr ⟨hsymbol, ?_⟩⟩
    refine List.forall_mem_append.mpr ⟨fun literal hl => ?_, h.tail.isWord_words⟩
    exact hc.literal literal (Option.mem_toList.mp hl)

theorem Printable.isWord_clause {f : Filter} (h : f.Printable) : ∀ w ∈ f.clause, IsWord w := by
  cases f with
  | nil => nofun
  | cons t f => exact List.forall_mem_cons.mpr ⟨by decide, h.isWord_words⟩

end Filter

/-- The items as they stand in parentheses. -/
def listText (items : List String) : String := " (" ++ ", ".intercalate items ++ ")"

theorem PrintsItems.cons_blank {items : List String} {cs : List Char} {b : Char}
    (h : PrintsItems items cs) (hb : isBlank b = true) : PrintsItems items (b :: cs) := by
  cases h with
  | one hcs => exact .one (hcs.cons_blank hb)
  | cons hcs hrest => exact .cons (hcs.cons_blank hb) hrest

theorem printsItems_intercalate : ∀ {items : List String}, IsList items →
    PrintsItems items (", ".intercalate items).toList
  | [item], h => by
    obtain ⟨ws, -, hws, rfl⟩ := (h.2 item List.mem_cons_self).words
    have hone := PrintsItems.one (spaced_intercalate hws)
    simpa using hone
  | item :: next :: items, h => by
    obtain ⟨ws, -, hws, rfl⟩ := (h.2 item List.mem_cons_self).words
    have htail : IsList (next :: items) :=
      ⟨List.cons_ne_nil _ _, fun i hi => h.2 i (List.mem_cons_of_mem _ hi)⟩
    have hrest := printsItems_intercalate htail
    have hcons := PrintsItems.cons (spaced_intercalate hws) (hrest.cons_blank isBlank_space)
    rw [String.toList_intercalate, List.map_cons,
      List.intercalate_cons_of_ne_nil (by simp), ← String.toList_intercalate, List.append_assoc]
    exact hcons

theorem printsList_listText {items : List String} (h : IsList items) :
    PrintsList items (listText items).toList := by
  have hgap : Gap [] := nofun
  have hlist := PrintsList.mk isBlank_space hgap (printsItems_intercalate h) hgap
  simpa [listText] using hlist

namespace Statement

/-- The words before the list or before the filter, and what follows them. -/
def text : Statement → String
  | create table columns => " ".intercalate ["CREATE", "TABLE", table] ++ listText columns
  | insert table values => " ".intercalate ["INSERT", "INTO", table, "VALUES"] ++ listText values
  | select table filter => " ".intercalate ("SELECT" :: "*" :: "FROM" :: table :: filter.clause)
  | update table column value filter =>
    " ".intercalate ("UPDATE" :: table :: "SET" :: column :: "=" :: value :: filter.clause)
  | delete table filter => " ".intercalate ("DELETE" :: "FROM" :: table :: filter.clause)

/-- Every printable statement has a text that writes it. -/
theorem prints_text {st : Statement} (h : st.Printable) : st.Prints st.text.toList := by
  cases st with
  | create table columns =>
    obtain ⟨htable, hcolumns⟩ := h
    have hwords : ∀ w ∈ ["CREATE", "TABLE", table], IsWord w := by
      simp only [List.forall_mem_cons, htable]
      decide
    rw [text, String.toList_append]
    exact .create (spells_self _) (spells_self _) (spaced_intercalate hwords)
      (printsList_listText hcolumns)
  | insert table values =>
    obtain ⟨htable, hvalues⟩ := h
    have hwords : ∀ w ∈ ["INSERT", "INTO", table, "VALUES"], IsWord w := by
      simp only [List.forall_mem_cons, htable]
      decide
    rw [text, String.toList_append]
    exact .insert (spells_self _) (spells_self _) (spells_self _) (spaced_intercalate hwords)
      (printsList_listText hvalues)
  | select table filter =>
    obtain ⟨htable, hfilter⟩ := h
    have hwords : ∀ w ∈ "SELECT" :: "*" :: "FROM" :: table :: filter.clause, IsWord w := by
      simp only [List.forall_mem_cons]
      exact ⟨by decide, by decide, by decide, htable, hfilter.isWord_clause⟩
    exact .select (spells_self _) (spells_self _) (Filter.clause_clause filter)
      (spaced_intercalate hwords)
  | update table column value filter =>
    obtain ⟨htable, hcolumn, hvalue, hfilter⟩ := h
    have hwords : ∀ w ∈ "UPDATE" :: table :: "SET" :: column :: "=" :: value :: filter.clause,
        IsWord w := by
      simp only [List.forall_mem_cons]
      exact ⟨by decide, htable, by decide, hcolumn, by decide, hvalue, hfilter.isWord_clause⟩
    exact .update (spells_self _) (spells_self _) (Filter.clause_clause filter)
      (spaced_intercalate hwords)
  | delete table filter =>
    obtain ⟨htable, hfilter⟩ := h
    have hwords : ∀ w ∈ "DELETE" :: "FROM" :: table :: filter.clause, IsWord w := by
      simp only [List.forall_mem_cons]
      exact ⟨by decide, by decide, htable, hfilter.isWord_clause⟩
    exact .delete (spells_self _) (spells_self _) (Filter.clause_clause filter)
      (spaced_intercalate hwords)

end Statement

end TableEngine
