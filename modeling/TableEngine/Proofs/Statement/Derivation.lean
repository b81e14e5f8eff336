import TableEngine.Proofs.Statement.Reading
import TableEngine.Proofs.Text.Tidy

/-!
# The words of a statement that is read

`Statement.Derives ws st` : the words `ws` have the shape of the statement `st`, keyword by
keyword, with the list or the filter that its last words write. The reader answers no
statement that its words do not derive (`Statement.derives_of_ofWords`).

From the shape follows what the parts of a statement look like (`Statement.worded_of_ofText`) :
names and the value of an update are words, and a list is not empty and its items are tidy.
-/

namespace TableEngine

open Text

namespace Statement

/-! ## The shape of a statement -/

/-- The words at the end of a statement write the filter. -/
inductive DerivesFilter (kind : StatementKind) : List String → Filter → Prop
  | absent : DerivesFilter kind [] []
  | present {w : String} {ws : List String} {filter : Filter} : sameWord w "WHERE" = true →
      Filter.ofWords kind ws = .ok filter → DerivesFilter kind (w :: ws) filter

/-- The words write the statement. -/
inductive Derives : List String → Statement → Prop
  | create {command w table : String} {ws columns : List String} :
    sameWord command "CREATE" = true → sameWord w "TABLE" = true → items ws = columns →
      columns ≠ [] → Derives (command :: w :: table :: ws) (.create table columns)
  | insert {command w table v : String} {ws values : List String} :
    sameWord command "INSERT" = true → sameWord w "INTO" = true → sameWord v "VALUES" = true →
      items ws = values → values ≠ [] →
        Derives (command :: w :: table :: v :: ws) (.insert table values)
  | select {command star w table : String} {ws : List String} {filter : Filter} :
    sameWord command "SELECT" = true → sameWord star "*" = true → sameWord w "FROM" = true →
      DerivesFilter .select ws filter →
        Derives (command :: star :: w :: table :: ws) (.select table filter)
  | update {command table w column sign value : String} {ws : List String} {filter : Filter} :
    sameWord command "UPDATE" = true → sameWord w "SET" = true → sameWord sign "=" = true →
      DerivesFilter .update ws filter →
        Derives (command :: table :: w :: column :: sign :: value :: ws)
          (.update table column value filter)
  | delete {command w table : String} {ws : List String} {filter : Filter} :
    sameWord command "DELETE" = true → sameWord w "FROM" = true →
      DerivesFilter .delete ws filter →
        Derives (command :: w :: table :: ws) (.delete table filter)

/-! ## Reading answers what the words derive -/

section Steps

variable {α : Type} {a : α} {kind : StatementKind} {keyword command : String} {part : Part}
  {ws : List String} {filter : Filter} {st : Statement}

/-- Reading goes on after a keyword only if the keyword is there. -/
theorem exists_of_dropKeyword {next : List String → Except Fault α}
    (h : (dropKeyword kind keyword ws >>= next) = .ok a) :
    ∃ w rest, ws = w :: rest ∧ sameWord w keyword = true ∧ next rest = .ok a := by
  cases ws with
  | nil => cases h
  | cons w rest =>
    rw [dropKeyword] at h
    split at h
    · next hw => exact ⟨w, rest, rfl, hw, h⟩
    · cases h

/-- Reading goes on after a name or a value only if there is a word. -/
theorem exists_of_takeWord {next : String × List String → Except Fault α}
    (h : (takeWord kind part ws >>= next) = .ok a) :
    ∃ w rest, ws = w :: rest ∧ next (w, rest) = .ok a := by
  cases ws with
  | nil => cases h
  | cons w rest => exact ⟨w, rest, rfl, h⟩

/-- Reading ends after a filter only if there is one, or no word is left. -/
theorem exists_of_whereClause {next : Filter → Except Fault α}
    (h : (whereClause kind ws >>= next) = .ok a) :
    ∃ filter, DerivesFilter kind ws filter ∧ next filter = .ok a := by
  cases hclause : whereClause kind ws with
  | error fault =>
    rw [hclause] at h
    cases h
  | ok filter =>
    rw [hclause] at h
    refine ⟨filter, ?_, h⟩
    obtain _ | ⟨w, ws⟩ := ws
    · cases hclause
      exact .absent
    · obtain ⟨v, rest, hcons, hv, hfilter⟩ := exists_of_dropKeyword hclause
      cases hcons
      exact .present hv hfilter

theorem derives_of_createOf (hc : sameWord command "CREATE" = true) (h : createOf ws = .ok st) :
    Derives (command :: ws) st := by
  obtain ⟨w, ws₁, rfl, hw, h₁⟩ := exists_of_dropKeyword h
  obtain ⟨table, ws₂, rfl, h₂⟩ := exists_of_takeWord h₁
  simp only at h₂
  split at h₂
  · cases h₂
  · next hne =>
    cases h₂
    exact .create hc hw rfl hne

theorem derives_of_insertOf (hc : sameWord command "INSERT" = true) (h : insertOf ws = .ok st) :
    Derives (command :: ws) st := by
  obtain ⟨w, ws₁, rfl, hw, h₁⟩ := exists_of_dropKeyword h
  obtain ⟨table, ws₂, rfl, h₂⟩ := exists_of_takeWord h₁
  obtain ⟨v, ws₃, rfl, hv, h₃⟩ := exists_of_dropKeyword h₂
  split at h₃
  · cases h₃
  · next hne =>
    cases h₃
    exact .insert hc hw hv rfl hne

theorem derives_of_selectOf (hc : sameWord command "SELECT" = true) (h : selectOf ws = .ok st) :
    Derives (command :: ws) st := by
  obtain ⟨star, ws₁, rfl, hstar, h₁⟩ := exists_of_dropKeyword h
  obtain ⟨w, ws₂, rfl, hw, h₂⟩ := exists_of_dropKeyword h₁
  obtain ⟨table, ws₃, rfl, h₃⟩ := exists_of_takeWord h₂
  obtain ⟨filter, hfilter, h₄⟩ := exists_of_whereClause h₃
  cases h₄
  exact .select hc hstar hw hfilter

theorem derives_of_updateOf (hc : sameWord command "UPDATE" = true) (h : updateOf ws = .ok st) :
    Derives (command :: ws) st := by
  obtain ⟨table, ws₁, rfl, h₁⟩ := exists_of_takeWord h
  obtain ⟨w, ws₂, rfl, hw, h₂⟩ := exists_of_dropKeyword h₁
  obtain ⟨column, ws₃, rfl, h₃⟩ := exists_of_takeWord h₂
  obtain ⟨sign, ws₄, rfl, hsign, h₄⟩ := exists_of_dropKeyword h₃
  obtain ⟨value, ws₅, rfl, h₅⟩ := exists_of_takeWord h₄
  obtain ⟨filter, hfilter, h₆⟩ := exists_of_whereClause h₅
  cases h₆
  exact .update hc hw hsign hfilter

theorem derives_of_deleteOf (hc : sameWord command "DELETE" = true) (h : deleteOf ws = .ok st) :
    Derives (command :: ws) st := by
  obtain ⟨w, ws₁, rfl, hw, h₁⟩ := exists_of_dropKeyword h
  obtain ⟨table, ws₂, rfl, h₂⟩ := exists_of_takeWord h₁
  obtain ⟨filter, hfilter, h₃⟩ := exists_of_whereClause h₂
  cases h₃
  exact .delete hc hw hfilter

/-- The words of a statement that is read derive it. -/
theorem derives_of_ofWords (h : ofWords ws = .ok st) : Derives ws st := by
  cases ws with
  | nil => cases h
  | cons command ws =>
    rw [ofWords] at h
    split at h
    · next hc => exact derives_of_createOf hc h
    split at h
    · next hc => exact derives_of_insertOf hc h
    split at h
    · next hc => exact derives_of_selectOf hc h
    split at h
    · next hc => exact derives_of_updateOf hc h
    split at h
    · next hc => exact derives_of_deleteOf hc h
    · cases h

end Steps

end Statement

/-! ## The parts of a statement -/

theorem mem_of_mem_splitCommas {x : List Char} {c : Char} : ∀ {cs : List Char},
    x ∈ splitCommas cs → c ∈ x → c ∈ cs
  | [], hx, hc => by
    rw [splitCommas, List.mem_singleton] at hx
    rwa [hx] at hc
  | d :: cs, hx, hc => by
    rw [splitCommas] at hx
    split at hx
    · rcases List.mem_cons.mp hx with rfl | hx
      · cases hc
      · exact List.mem_cons_of_mem d (mem_of_mem_splitCommas hx hc)
    · split at hx
      · rw [List.mem_singleton] at hx
        rw [hx, List.mem_singleton] at hc
        exact hc ▸ List.mem_cons_self
      · next item rest hsplit =>
        rcases List.mem_cons.mp hx with rfl | hx
        · rcases List.mem_cons.mp hc with rfl | hc
          · exact List.mem_cons_self
          · exact List.mem_cons_of_mem d (mem_of_mem_splitCommas (hsplit ▸ List.mem_cons_self) hc)
        · exact List.mem_cons_of_mem d
            (mem_of_mem_splitCommas (hsplit ▸ List.mem_cons_of_mem item hx) hc)

/-- The items that are read from words are tidy. -/
theorem tidy_of_mem_items {ws : List String} (hws : ∀ w ∈ ws, IsWord w) {item : String}
    (h : item ∈ items ws) : Tidy item := by
  simp only [items, List.mem_map, List.mem_filter] at h
  obtain ⟨_, ⟨⟨cs, hcs, rfl⟩, hne⟩, rfl⟩ := h
  refine tidy_trim hws (fun c hc => ?_) (by simpa using hne)
  exact (List.mem_filter.mp (mem_of_mem_splitCommas hcs hc)).1

namespace Statement

/-- Names and the value of an update are words, and a list has items, all of them tidy. -/
def Worded : Statement → Prop
  | create table columns => IsWord table ∧ columns ≠ [] ∧ ∀ column ∈ columns, Tidy column
  | insert table values => IsWord table ∧ values ≠ [] ∧ ∀ value ∈ values, Tidy value
  | select table _ | delete table _ => IsWord table
  | update table column value _ => IsWord table ∧ IsWord column ∧ IsWord value

theorem Derives.worded {ws : List String} {st : Statement} (h : Derives ws st)
    (hws : ∀ w ∈ ws, IsWord w) : st.Worded := by
  cases h with
  | create _ _ hitems hne =>
    simp only [List.forall_mem_cons] at hws
    obtain ⟨-, -, htable, hws⟩ := hws
    exact ⟨htable, hne, fun column hc => tidy_of_mem_items hws (hitems ▸ hc)⟩
  | insert _ _ _ hitems hne =>
    simp only [List.forall_mem_cons] at hws
    obtain ⟨-, -, htable, -, hws⟩ := hws
    exact ⟨htable, hne, fun value hv => tidy_of_mem_items hws (hitems ▸ hv)⟩
  | select =>
    simp only [List.forall_mem_cons] at hws
    exact hws.2.2.2.1
  | update =>
    simp only [List.forall_mem_cons] at hws
    obtain ⟨-, htable, -, hcolumn, -, hvalue, -⟩ := hws
    exact ⟨htable, hcolumn, hvalue⟩
  | delete =>
    simp only [List.forall_mem_cons] at hws
    exact hws.2.2.1

theorem worded_of_ofText {text : String} {st : Statement} (h : ofText text = .ok st) :
    st.Worded :=
  (derives_of_ofWords h).worded (words_eq_iff.mp rfl).isWord

end Statement

end TableEngine
