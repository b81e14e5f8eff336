import TableEngine.Proofs.Checked.Word
import TableEngine.Statement.Grammar

/-!
# Reading words by their place, with checks

The grammar takes the words of a statement off the front of a list. Here the words stay where they
are, and a `Cursor` moves over them. The step that can go wrong is to take all words that are
left : it panics if the cursor has moved past the end.

It never does (`Statement.checkedOfWords_eq`). A reading that starts anywhere in the words
answers what the grammar makes of the words from there on (`Reads`). One lemma says this for
each step, and the statements are put together from them as in the grammar.
-/

namespace TableEngine

open Checked Text

/-- The words of a statement, and the place of the next one to be read. -/
structure Cursor where
  words : List String
  position : Nat

namespace Cursor

/-- The word at the place, unless it is the end. -/
def word? (c : Cursor) : Option String := c.words[c.position]?

def atEnd (c : Cursor) : Bool := c.position ≥ c.words.length

/-- One word further, but not past the end. -/
def advance (c : Cursor) : Cursor :=
  if c.position < c.words.length then { c with position := c.position + 1 } else c

/-- Past the last word. -/
def finish (c : Cursor) : Cursor := { c with position := c.words.length }

/-- The words from the place on. -/
def rest (c : Cursor) : Checked (List String) :=
  if c.position ≤ c.words.length then .ok (c.words.drop c.position) else .error .outOfBounds

/-- The place between words that have been read and words that have not. -/
def between (before ws : List String) : Cursor := ⟨before ++ ws, before.length⟩

variable (before ws : List String) (w : String)

@[simp] theorem word?_between : (between before ws).word? = ws.head? := by
  cases ws <;> simp [between, word?]

@[simp] theorem atEnd_between : (between before ws).atEnd = ws.isEmpty := by
  cases ws <;> simp [between, atEnd]

@[simp] theorem advance_between :
    (between before (w :: ws)).advance = between (before ++ [w]) ws := by
  simp [between, advance]

@[simp] theorem finish_between : (between before ws).finish = between (before ++ ws) [] := by
  simp [between, finish]

@[simp] theorem rest_between : (between before ws).rest = .ok ws := by
  simp [between, rest]

end Cursor

/-- A computation that moves a cursor, and may find a fault in the words or panic. -/
abbrev Reading := StateT Cursor (ExceptT Fault Checked)

namespace Reading

variable {α : Type}

/-- An answer that needs no further word. -/
def answer (result : Except Fault α) : Reading α := fun c => .ok (result.map (·, c))

/-- Move past a keyword, in any case. -/
def keyword (kind : StatementKind) (keyword : String) : Reading Unit := do
  match (← get).word? with
  | some w =>
    if sameWord w keyword then modify Cursor.advance
    else throw (.malformed kind (.expected keyword (some w)))
  | none => throw (.malformed kind (.expected keyword none))

/-- Move past a word that names a part of the statement. -/
def word (kind : StatementKind) (part : Part) : Reading String := do
  match (← get).word? with
  | some w =>
    modify Cursor.advance
    return w
  | none => throw (.malformed kind (.missing part))

/-- Take all words that are left. -/
def remaining : Reading (List String) := do
  let words ← (← get).rest
  modify Cursor.finish
  return words

/-- The filter at the end of a statement; no words mean no filter. -/
def filter (kind : StatementKind) : Reading Filter := do
  if (← get).atEnd then return []
  keyword kind "WHERE"
  answer (Filter.ofWords kind (← remaining))

/-- A statement with a list at its end; a list without items is a defect. -/
def list (kind : StatementKind) (defect : Defect) (build : List String → Statement) :
    Reading Statement := do
  let words ← remaining
  answer (match items words with
    | [] => .error (.malformed kind defect)
    | list => .ok (build list))

/-- A statement with a filter at its end. -/
def filtered (kind : StatementKind) (build : Filter → Statement) : Reading Statement := do
  let filter ← filter kind
  answer (.ok (build filter))

def create : Reading Statement := do
  keyword .create "CREATE"
  keyword .create "TABLE"
  let table ← word .create .tableName
  list .create .noColumns (.create table)

def insert : Reading Statement := do
  keyword .insert "INSERT"
  keyword .insert "INTO"
  let table ← word .insert .tableName
  keyword .insert "VALUES"
  list .insert .noValues (.insert table)

def select : Reading Statement := do
  keyword .select "SELECT"
  keyword .select "*"
  keyword .select "FROM"
  let table ← word .select .tableName
  filtered .select (.select table)

def update : Reading Statement := do
  keyword .update "UPDATE"
  let table ← word .update .tableName
  keyword .update "SET"
  let column ← word .update .column
  keyword .update "="
  let value ← word .update .value
  filtered .update (.update table column value)

def delete : Reading Statement := do
  keyword .delete "DELETE"
  keyword .delete "FROM"
  let table ← word .delete .tableName
  filtered .delete (.delete table)

/-- The statement of the command at the cursor. -/
def statement : Reading Statement := do
  match (← get).word? with
  | none => throw .emptyStatement
  | some command =>
    if sameWord command "CREATE" then create
    else if sameWord command "INSERT" then insert
    else if sameWord command "SELECT" then select
    else if sameWord command "UPDATE" then update
    else if sameWord command "DELETE" then delete
    else throw (.unknownCommand command)

end Reading

/-- `Statement.ofWords`, by a cursor and with checks. -/
def Statement.checkedOfWords (ws : List String) : Checked (Except Fault Statement) := do
  let result ← (Reading.statement.run ⟨ws, 0⟩).run
  .ok (result.map Prod.fst)

/-! ## What is read from a place on -/

section Steps

variable {α β : Type} {r : Reading α} {c c' : Cursor} {a : α} {fault : Fault}

/-- The next computation starts where this one ends. -/
theorem Reading.run_bind_ok (h : (r.run c).run = .ok (.ok (a, c'))) (next : α → Reading β) :
    ((r >>= next).run c).run = ((next a).run c').run := by
  rw [StateT.run_bind, ExceptT.run_bind, h]
  rfl

/-- After a fault nothing is read. -/
theorem Reading.run_bind_error (h : (r.run c).run = .ok (.error fault)) (next : α → Reading β) :
    ((r >>= next).run c).run = .ok (.error fault) := by
  rw [StateT.run_bind, ExceptT.run_bind, h]
  rfl

/-- The end of a computation without a fault. -/
def Reading.taken (a : α) (c : Cursor) : Checked (Except Fault (α × Cursor)) := .ok (.ok (a, c))

/-- To look at the cursor does not move it. -/
theorem Reading.run_get_bind (next : Cursor → Reading β) :
    ((get >>= next).run c).run = ((next c).run c).run := rfl

/-- From every place the computation takes off the words that are left what `g` takes off them. -/
def Takes (r : Reading α) (g : List String → Except Fault (α × List String)) : Prop :=
  ∀ before ws, ∃ before', (r.run (.between before ws)).run =
    .ok ((g ws).map fun (a, rest) => (a, .between before' rest))

/-- From every place the computation answers what `f` makes of the words that are left. -/
def Reads (r : Reading α) (f : List String → Except Fault α) : Prop :=
  ∀ before ws, ∃ c, (r.run (.between before ws)).run = .ok ((f ws).map (·, c))

variable {g : List String → Except Fault (α × List String)} {f : List String → Except Fault α}
  {kind : StatementKind}

theorem Takes.bind (h : Takes r g) {next : α → Reading β}
    {after : α → List String → Except Fault β} (hnext : ∀ a, Reads (next a) (after a)) :
    Reads (r >>= next) fun ws => g ws >>= fun (a, rest) => after a rest := by
  intro before ws
  obtain ⟨before', hr⟩ := h before ws
  simp only
  cases hg : g ws with
  | error fault =>
    rw [hg] at hr
    exact ⟨.between before ws, Reading.run_bind_error hr next⟩
  | ok taken =>
    obtain ⟨a, rest⟩ := taken
    rw [hg] at hr
    obtain ⟨c, hc⟩ := hnext a before' rest
    exact ⟨c, (Reading.run_bind_ok hr next).trans hc⟩

/-- A keyword leaves no value behind. -/
theorem takes_keyword (key : String) : Takes (Reading.keyword kind key) fun ws =>
    (Statement.dropKeyword kind key ws).map ((), ·) := by
  intro before ws
  rw [Reading.keyword, Reading.run_get_bind, Cursor.word?_between]
  cases ws with
  | nil => exact ⟨before, rfl⟩
  | cons w ws =>
    refine ⟨before ++ [w], ?_⟩
    simp only [List.head?_cons, Statement.dropKeyword]
    split
    · exact congrArg (Reading.taken ()) (Cursor.advance_between before ws w)
    · rfl

theorem takes_word (part : Part) :
    Takes (Reading.word kind part) (Statement.takeWord kind part) := by
  intro before ws
  rw [Reading.word, Reading.run_get_bind, Cursor.word?_between]
  cases ws with
  | nil => exact ⟨before, rfl⟩
  | cons w ws =>
    exact ⟨before ++ [w], congrArg (Reading.taken w) (Cursor.advance_between before ws w)⟩

theorem takes_remaining : Takes Reading.remaining fun ws => .ok (ws, []) := by
  intro before ws
  rw [Reading.remaining, Reading.run_get_bind, Cursor.rest_between]
  exact ⟨before ++ ws, congrArg (Reading.taken ws) (Cursor.finish_between before ws)⟩

theorem Reads.keyword (h : Reads r f) (key : String) : Reads (do Reading.keyword kind key; r)
    fun ws => Statement.dropKeyword kind key ws >>= f := by
  have hf : (fun ws => Statement.dropKeyword kind key ws >>= f) = fun ws =>
      (Statement.dropKeyword kind key ws).map ((), ·) >>= fun (_, rest) => f rest := by
    funext ws
    cases Statement.dropKeyword kind key ws <;> rfl
  rw [hf]
  exact (takes_keyword key).bind fun _ => h

theorem Reads.remaining {next : List String → Reading α}
    (h : ∀ words, Reads (next words) fun _ => f words) : Reads (Reading.remaining >>= next) f :=
  takes_remaining.bind h

theorem Reads.answer (result : Except Fault α) : Reads (Reading.answer result) fun _ => result :=
  fun _ _ => ⟨_, rfl⟩

/-- Past a keyword that the next word writes. -/
theorem Reads.command {w key : String}
    (h : Reads r fun ws => Statement.dropKeyword kind key ws >>= f) (hkey : sameWord w key)
    (before ws : List String) :
    ∃ c, (r.run (.between before (w :: ws))).run = .ok ((f ws).map (·, c)) := by
  have hdrop : Statement.dropKeyword kind key (w :: ws) = .ok ws := if_pos hkey
  obtain ⟨c, hc⟩ := h before (w :: ws)
  simp only [hdrop] at hc
  exact ⟨c, hc⟩

/-- After the last words there is only an answer to be made of what was read. -/
theorem Reads.bind_answer (h : Reads r f) (next : α → Except Fault β) :
    Reads (r >>= fun a => Reading.answer (next a)) fun ws => f ws >>= next := by
  intro before ws
  obtain ⟨c, hr⟩ := h before ws
  simp only
  cases hf : f ws with
  | error fault =>
    rw [hf] at hr
    exact ⟨c, Reading.run_bind_error hr _⟩
  | ok a =>
    rw [hf] at hr
    exact ⟨c, Reading.run_bind_ok hr _⟩

variable (kind)

theorem reads_clause : Reads
    (do
      Reading.keyword kind "WHERE"
      Reading.answer (Filter.ofWords kind (← Reading.remaining)))
    fun ws => Statement.dropKeyword kind "WHERE" ws >>= Filter.ofWords kind :=
  .keyword (.remaining fun _ => .answer _) "WHERE"

theorem reads_filter : Reads (Reading.filter kind) (Statement.whereClause kind) := by
  intro before ws
  rw [Reading.filter, Reading.run_get_bind, Cursor.atEnd_between]
  cases ws with
  | nil => exact ⟨.between before [], rfl⟩
  | cons w ws => exact reads_clause kind before (w :: ws)

end Steps

/-! ## Statements -/

namespace Statement

theorem reads_list (kind : StatementKind) (defect : Defect) (build : List String → Statement) :
    Reads (Reading.list kind defect build) fun ws =>
      match items ws with
      | [] => .error (.malformed kind defect)
      | list => .ok (build list) :=
  .remaining fun _ => .answer _

theorem reads_filtered (kind : StatementKind) (build : Filter → Statement) :
    Reads (Reading.filtered kind build) fun ws =>
      whereClause kind ws >>= fun filter => .ok (build filter) :=
  (reads_filter kind).bind_answer _

theorem reads_create :
    Reads Reading.create fun ws => dropKeyword .create "CREATE" ws >>= createOf :=
  .keyword (.keyword ((takes_word .tableName).bind fun table =>
    reads_list .create .noColumns (.create table)) "TABLE") "CREATE"

theorem reads_insert :
    Reads Reading.insert fun ws => dropKeyword .insert "INSERT" ws >>= insertOf :=
  .keyword (.keyword ((takes_word .tableName).bind fun table =>
    .keyword (reads_list .insert .noValues (.insert table)) "VALUES") "INTO") "INSERT"

theorem reads_select :
    Reads Reading.select fun ws => dropKeyword .select "SELECT" ws >>= selectOf :=
  .keyword (.keyword (.keyword ((takes_word .tableName).bind fun table =>
    reads_filtered .select (.select table)) "FROM") "*") "SELECT"

theorem reads_update :
    Reads Reading.update fun ws => dropKeyword .update "UPDATE" ws >>= updateOf :=
  .keyword ((takes_word .tableName).bind fun table =>
    .keyword ((takes_word .column).bind fun column =>
      .keyword ((takes_word .value).bind fun value =>
        reads_filtered .update (.update table column value)) "=") "SET") "UPDATE"

theorem reads_delete :
    Reads Reading.delete fun ws => dropKeyword .delete "DELETE" ws >>= deleteOf :=
  .keyword (.keyword ((takes_word .tableName).bind fun table =>
    reads_filtered .delete (.delete table)) "FROM") "DELETE"

theorem reads_statement : Reads Reading.statement ofWords := by
  intro before ws
  rw [Reading.statement, Reading.run_get_bind, Cursor.word?_between]
  cases ws with
  | nil => exact ⟨.between before [], rfl⟩
  | cons command ws =>
    simp only [List.head?_cons, ofWords]
    split_ifs with hcreate hinsert hselect hupdate hdelete
    · exact reads_create.command hcreate before ws
    · exact reads_insert.command hinsert before ws
    · exact reads_select.command hselect before ws
    · exact reads_update.command hupdate before ws
    · exact reads_delete.command hdelete before ws
    · exact ⟨.between before (command :: ws), rfl⟩

/-- No text takes the place of the next word past the end. -/
theorem checkedOfWords_eq (ws : List String) : checkedOfWords ws = .ok (ofWords ws) := by
  obtain ⟨c, hc⟩ := reads_statement [] ws
  rw [checkedOfWords, show Cursor.mk ws 0 = .between [] ws from rfl, hc]
  cases ofWords ws <;> rfl

end Statement

end TableEngine
