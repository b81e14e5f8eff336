import TableEngine.Proofs.Statement.Derivation
import TableEngine.Proofs.Statement.Operands

/-!
# Which words are read, and as what

The reader answers a statement exactly when the words derive it (`Statement.ofWords_eq_iff`) :
`Statement.derives_of_ofWords` is one direction, and `Statement.ofWords_of_derives` the other.
No words, and a first word that is no command, have faults of their own. All other words
that derive nothing have a defect of the kind of statement that their first word begins
(`Blames`), wherever it is found. The list of a statement is what the library's `List.splitOn`
makes of its words (`items_eq_splitOn`).
-/

namespace TableEngine

open Text

/-- The word that a statement of the kind begins with. -/
def StatementKind.command : StatementKind → String
  | create => "CREATE"
  | insert => "INSERT"
  | select => "SELECT"
  | update => "UPDATE"
  | delete => "DELETE"

/-! ## The items of a list -/

theorem splitCommas_eq_splitOn : ∀ cs : List Char, splitCommas cs = cs.splitOn ','
  | [] => rfl
  | c :: cs => by
    have ih := splitCommas_eq_splitOn cs
    rw [List.splitOn] at ih ⊢
    rw [splitCommas, List.splitOnP_cons_eq_if_modifyHead, ← ih]
    split
    · rfl
    · cases h : splitCommas cs with
      | nil => exact absurd (ih.symm.trans h) (List.splitOnP_ne_nil _ cs)
      | cons item rest => rfl

/-- The words joined by spaces, without parentheses, split at commas and trimmed, but for what
is empty then. -/
theorem items_eq_splitOn (ws : List String) :
    items ws = (((((" ".intercalate ws).toList.filter fun c => c != '(' && c != ')').splitOn
      ',').map trim).filter fun item => !item.isEmpty).map String.ofList := by
  rw [items, splitCommas_eq_splitOn]

/-! ## Keywords -/

section Keywords

variable {w keyword : String}

theorem eq_of_toLower_eq {c k : Char} (hupper : ¬k.isUpper) (hlower : ¬k.isLower)
    (h : c.toLower = k.toLower) : c = k := by
  rw [Char.toLower_eq_of_not_isUpper hupper] at h
  by_cases hc : c.isUpper
  · have hfixed := congrArg Char.toUpper h
    rwa [Char.toUpper_toLower_eq_toUpper, Char.toUpper_eq_of_not_isLower hlower,
      Char.toUpper_eq_of_not_isLower (Char.not_isLower_of_isUpper hc)] at hfixed
  · rwa [Char.toLower_eq_of_not_isUpper hc] at h

/-- A keyword without letters can be written in one way only. -/
theorem eq_of_sameWord (hcase : ∀ k ∈ keyword.toList, ¬k.isUpper ∧ ¬k.isLower)
    (h : sameWord w keyword = true) : w = keyword := by
  have hchars := folded_eq_iff.mp (sameWord_iff.mp h)
  have hboth := (List.forall₂_and_left keyword.toList w.toList).mpr ⟨hcase, hchars.flip⟩
  have heq := hboth.flip.imp fun c k hck => eq_of_toLower_eq hck.1.1 hck.1.2 hck.2
  exact String.toList_inj.mp (List.forall₂_eq_eq_eq ▸ heq)

end Keywords

namespace Statement

variable {ws : List String} {command : String} {kind : StatementKind} {st : Statement}

/-! ## The first word -/

/-- What is read after the first word. -/
def bodyOf : StatementKind → List String → Except Fault Statement
  | .create => createOf
  | .insert => insertOf
  | .select => selectOf
  | .update => updateOf
  | .delete => deleteOf

theorem spells_command (h : sameWord command kind.command = true) : Spells command kind.command :=
  spells_of_sameWord (by cases kind <;> simp [StatementKind.command]) h

theorem ofWords_of_command (h : sameWord command kind.command = true) :
    ofWords (command :: ws) = bodyOf kind ws := by
  rw [ofWords_of_spells (spells_command h) (by cases kind <;> decide)]
  cases kind <;> rfl

theorem ofWords_of_unknown (h : ∀ kind : StatementKind, sameWord command kind.command = false) :
    ofWords (command :: ws) = .error (.unknownCommand command) := by
  have hcreate : sameWord command "CREATE" = false := h .create
  have hinsert : sameWord command "INSERT" = false := h .insert
  have hselect : sameWord command "SELECT" = false := h .select
  have hupdate : sameWord command "UPDATE" = false := h .update
  have hdelete : sameWord command "DELETE" = false := h .delete
  simp [ofWords, hcreate, hinsert, hselect, hupdate, hdelete]

/-! ## Words that derive a statement are read -/

theorem whereClause_of_derives {filter : Filter} (h : DerivesFilter kind ws filter) :
    whereClause kind ws = .ok filter := by
  cases h with
  | absent => rfl
  | present hw hfilter =>
    rw [whereClause, dropKeyword_of_spells (spells_of_sameWord (by simp) hw)]
    · exact hfilter
    · exact List.cons_ne_nil _ _

theorem ofWords_of_derives (h : Derives ws st) : ofWords ws = .ok st := by
  cases h with
  | create hcommand hw hitems hne =>
    exact ofWords_create (spells_of_sameWord (by simp) hcommand)
      (spells_of_sameWord (by simp) hw) hitems hne
  | insert hcommand hw hv hitems hne =>
    exact ofWords_insert (spells_of_sameWord (by simp) hcommand)
      (spells_of_sameWord (by simp) hw) (spells_of_sameWord (by simp) hv) hitems hne
  | select hcommand hstar hw hfilter =>
    obtain rfl := eq_of_sameWord (by simp) hstar
    exact ofWords_select (spells_of_sameWord (by simp) hcommand)
      (spells_of_sameWord (by simp) hw) (whereClause_of_derives hfilter)
  | update hcommand hw hsign hfilter =>
    obtain rfl := eq_of_sameWord (by simp) hsign
    exact ofWords_update (spells_of_sameWord (by simp) hcommand)
      (spells_of_sameWord (by simp) hw) (whereClause_of_derives hfilter)
  | delete hcommand hw hfilter =>
    exact ofWords_delete (spells_of_sameWord (by simp) hcommand)
      (spells_of_sameWord (by simp) hw) (whereClause_of_derives hfilter)

theorem ofWords_eq_ok_iff : ofWords ws = .ok st ↔ Derives ws st :=
  ⟨derives_of_ofWords, ofWords_of_derives⟩

/-! ## What is wrong with words that are not read -/

/-- If there is no answer, then for a defect of a statement of the kind. -/
def Blames {α : Type} (kind : StatementKind) (answer : Except Fault α) : Prop :=
  ∀ fault, answer = .error fault → ∃ defect, fault = .malformed kind defect

namespace Blames

variable {α β : Type} {answer : Except Fault α}

theorem ok (a : α) : Blames kind (.ok a) := nofun

theorem malformed (defect : Defect) : Blames kind (.error (.malformed kind defect) : Except Fault α) :=
  fun _ h => ⟨defect, (Except.error.inj h).symm⟩

theorem bind (h : Blames kind answer) {next : α → Except Fault β}
    (hnext : ∀ a, Blames kind (next a)) : Blames kind (answer >>= next) := by
  cases answer with
  | ok a => exact hnext a
  | error fault =>
    intro fault' hfault
    cases hfault
    exact h fault rfl

theorem map (h : Blames kind answer) (g : α → β) : Blames kind (answer.map g) := by
  cases answer with
  | ok a => exact ok (g a)
  | error fault =>
    intro fault' hfault
    cases hfault
    exact h fault rfl

theorem dropKeyword (keyword : String) : Blames kind (dropKeyword kind keyword ws) := by
  cases ws with
  | nil => exact malformed _
  | cons w rest =>
    rw [Statement.dropKeyword]
    split
    · exact ok rest
    · exact malformed _

theorem takeWord (part : Part) : Blames kind (takeWord kind part ws) := by
  cases ws with
  | nil => exact malformed _
  | cons w rest => exact ok (w, rest)

theorem scan : ∀ (previous : Option String) (ws : List String),
    Blames kind (Filter.scan kind previous ws)
  | _, [] => ok []
  | previous, w :: ws => by
    cases ho : Comparison.ofSymbol? w with
    | none =>
      cases hj : Connective.ofWord? w with
      | none =>
        rw [Filter.scan_other hj ho]
        exact scan _ ws
      | some join =>
        rw [Filter.scan_connective hj]
        exact (scan _ ws).map _
    | some op =>
      obtain _ | column := previous
      · rw [Filter.scan_operator_none ho]
        exact malformed _
      obtain _ | ⟨literal, ws⟩ := ws
      · rw [Filter.scan_operator_last ho]
        exact ok _
      · rw [Filter.scan_operator ho]
        exact (scan _ ws).map _

theorem whereClause (ws : List String) : Blames kind (whereClause kind ws) := by
  cases ws with
  | nil => exact ok []
  | cons w rest => exact (dropKeyword "WHERE").bind fun ws => scan none ws

theorem bodyOf (kind : StatementKind) (ws : List String) : Blames kind (bodyOf kind ws) := by
  cases kind with
  | create =>
    refine (dropKeyword "TABLE").bind fun _ => (takeWord .tableName).bind fun ⟨table, words⟩ => ?_
    simp only
    split
    · exact malformed _
    · exact ok _
  | insert =>
    refine (dropKeyword "INTO").bind fun _ => (takeWord .tableName).bind fun _ =>
      (dropKeyword "VALUES").bind fun words => ?_
    split
    · exact malformed _
    · exact ok _
  | select =>
    exact (dropKeyword "*").bind fun _ => (dropKeyword "FROM").bind fun _ =>
      (takeWord .tableName).bind fun _ => (whereClause _).bind fun _ => ok _
  | update =>
    exact (takeWord .tableName).bind fun _ => (dropKeyword "SET").bind fun _ =>
      (takeWord .column).bind fun _ => (dropKeyword "=").bind fun _ =>
        (takeWord .value).bind fun _ => (whereClause _).bind fun _ => ok _
  | delete =>
    exact (dropKeyword "FROM").bind fun _ => (takeWord .tableName).bind fun _ =>
      (whereClause _).bind fun _ => ok _

end Blames

/-! ## Every list of words -/

/-- No words, or a first word that is no command, or the command of a kind of statement : then a
statement is read, or a defect of that kind is found. -/
theorem ofWords_cases (ws : List String) :
    (ws = [] ∧ ofWords ws = .error .emptyStatement) ∨
    (∃ command, ws.head? = some command ∧
      (∀ kind : StatementKind, sameWord command kind.command = false) ∧
      ofWords ws = .error (.unknownCommand command)) ∨
    ∃ command, ∃ kind : StatementKind, ws.head? = some command ∧
      sameWord command kind.command = true ∧
      ((∃ st, ofWords ws = .ok st) ∨ ∃ defect, ofWords ws = .error (.malformed kind defect)) := by
  obtain _ | ⟨command, rest⟩ := ws
  · exact Or.inl ⟨rfl, rfl⟩
  by_cases hknown : ∃ kind : StatementKind, sameWord command kind.command = true
  · obtain ⟨kind, hkind⟩ := hknown
    refine Or.inr (Or.inr ⟨command, kind, rfl, hkind, ?_⟩)
    rw [ofWords_of_command hkind]
    cases hbody : bodyOf kind rest with
    | ok st => exact Or.inl ⟨st, rfl⟩
    | error fault =>
      obtain ⟨defect, rfl⟩ := Blames.bodyOf kind rest fault hbody
      exact Or.inr ⟨defect, rfl⟩
  · have hunknown : ∀ kind : StatementKind, sameWord command kind.command = false := by
      simpa using hknown
    exact Or.inr (Or.inl ⟨command, rfl, hunknown, ofWords_of_unknown hunknown⟩)

theorem ofWords_eq_emptyStatement_iff : ofWords ws = .error .emptyStatement ↔ ws = [] := by
  constructor
  · intro h
    rcases ofWords_cases ws with ⟨hnil, -⟩ | ⟨_, -, -, h'⟩ | ⟨_, _, -, -, ⟨_, h'⟩ | ⟨_, h'⟩⟩
    · exact hnil
    all_goals
      rw [h'] at h
      cases h
  · rintro rfl
    rfl

theorem ofWords_eq_unknownCommand_iff : ofWords ws = .error (.unknownCommand command) ↔
    ws.head? = some command ∧ ∀ kind : StatementKind, sameWord command kind.command = false := by
  constructor
  · intro h
    rcases ofWords_cases ws with ⟨-, h'⟩ | ⟨_, hhead, hunknown, h'⟩ |
      ⟨_, _, -, -, ⟨_, h'⟩ | ⟨_, h'⟩⟩
    all_goals
      rw [h'] at h
      cases h
    exact ⟨hhead, hunknown⟩
  · rintro ⟨hhead, hunknown⟩
    obtain ⟨rest, rfl⟩ := List.head?_eq_some_iff.mp hhead
    exact ofWords_of_unknown hunknown

theorem ofWords_eq_malformed_iff : (∃ defect, ofWords ws = .error (.malformed kind defect)) ↔
    (∃ command, ws.head? = some command ∧ sameWord command kind.command = true) ∧
      ∀ st, ¬Derives ws st := by
  constructor
  · rintro ⟨defect, h⟩
    rcases ofWords_cases ws with ⟨-, h'⟩ | ⟨_, -, -, h'⟩ |
      ⟨command, _, hhead, hcommand, ⟨_, h'⟩ | ⟨_, h'⟩⟩
    all_goals
      rw [h'] at h
      cases h
    refine ⟨⟨command, hhead, hcommand⟩, fun st hst => ?_⟩
    rw [ofWords_of_derives hst] at h'
    cases h'
  · rintro ⟨⟨command, hhead, hcommand⟩, hnone⟩
    obtain ⟨rest, rfl⟩ := List.head?_eq_some_iff.mp hhead
    cases h : ofWords (command :: rest) with
    | ok st => exact absurd (derives_of_ofWords h) (hnone st)
    | error fault =>
      rw [ofWords_of_command hcommand] at h
      obtain ⟨defect, rfl⟩ := Blames.bodyOf kind rest fault h
      exact ⟨defect, rfl⟩

/-- The reader answers a statement exactly if the words derive it. If there are no words, it
says so, and if the first word is not a command, it names that word. Otherwise the
first word is the command of a kind of statement, and words that derive nothing are malformed as a
statement of that kind. A list of columns or values is what its words leave when they are
joined by spaces, freed from parentheses, split at commas and trimmed, without empty items. -/
theorem ofWords_eq_iff (ws : List String) :
    (ofWords ws = .error .emptyStatement ↔ ws = []) ∧
    (∀ command, ofWords ws = .error (.unknownCommand command) ↔ ws.head? = some command ∧
      ∀ kind : StatementKind, sameWord command kind.command = false) ∧
    (∀ st, ofWords ws = .ok st ↔ Derives ws st) ∧
    (∀ kind : StatementKind, (∃ defect, ofWords ws = .error (.malformed kind defect)) ↔
      (∃ command, ws.head? = some command ∧ sameWord command kind.command = true) ∧
        ∀ st, ¬Derives ws st) ∧
    ∀ list, items list = (((((" ".intercalate list).toList.filter fun c =>
      c != '(' && c != ')').splitOn ',').map trim).filter fun item => !item.isEmpty).map
        String.ofList :=
  ⟨ofWords_eq_emptyStatement_iff, fun _ => ofWords_eq_unknownCommand_iff,
    fun _ => ofWords_eq_ok_iff, fun _ => ofWords_eq_malformed_iff, items_eq_splitOn⟩

end Statement

end TableEngine
