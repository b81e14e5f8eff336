import TableEngine.Row.Filter

/-!
# Filters are evaluated from left to right

A filter may have its connectives anywhere : before the first comparison, several in a row, none
between two comparisons, or at the end. `Filter.accepts` gives every comparison the last connective
before it and joins the results in order.

The same answer comes from one pass over the terms that keeps the last connective and the result
so far, which nothing has decided before the first comparison (`Filter.Progress`), and from two
lists, the results and the connectives that join them, of which the second is shorter by one
(`Filter.outcomes`, `Filter.joins`). `Filter.accepts_eq` says so. A filter can therefore be
extended at its end : another comparison is joined to all of what stands before it.

A filter reads the columns of its comparisons and no others (`Filter.columns`). A write to any
other column leaves the answer as it is (`Filter.accepts_set`).
-/

namespace TableEngine

namespace Term

def isTest : Term → Bool
  | test _ => true
  | join _ => false

end Term

namespace Filter

/-! ## Filters without comparisons -/

theorem joined_eq_nil : ∀ {f : Filter} (latest : Connective), (∀ c, .test c ∉ f) →
    joined latest f = []
  | [], _, _ => rfl
  | .join c :: _, _, h => joined_eq_nil c fun d hd => h d (List.mem_cons_of_mem _ hd)
  | .test c :: _, _, h => absurd List.mem_cons_self (h c)

/-- A filter without comparisons accepts every row. -/
theorem accepts_of_forall_not_mem {f : Filter} (h : ∀ c, .test c ∉ f) (row : Row) :
    f.accepts row = true := by
  rw [accepts, joined_eq_nil .and h]

/-! ## One pass -/

/-- How far an evaluation has come : the last connective, and the result of the comparisons so
far if there are any. -/
structure Progress where
  latest : Connective
  result : Option Bool

namespace Progress

/-- Nothing is decided, and the first connective is `AND`. -/
def start : Progress := ⟨.and, none⟩

/-- The result with one more comparison. -/
def extend (result : Option Bool) (join : Connective) (outcome : Bool) : Bool :=
  match result with
  | none => outcome
  | some result => join.combine result outcome

def step (row : Row) (s : Progress) : Term → Progress
  | .join c => { s with latest := c }
  | .test c => { s with result := some (extend s.result s.latest (c.holds row)) }

end Progress

open Progress

/-- Evaluate the terms one after another. -/
def evaluate (f : Filter) (row : Row) : Progress := f.foldl (step row) start

variable {row : Row}

/-- A filter that follows on a result joins all of its comparisons to it. -/
theorem result_foldl_step_some : ∀ (f : Filter) (latest : Connective) (r : Bool),
    (f.foldl (step row) ⟨latest, some r⟩).result =
      some ((joined latest f).foldl (fun result (join, c) => join.combine result (c.holds row)) r)
  | [], _, _ => rfl
  | .join c :: f, _, r => result_foldl_step_some f c r
  | .test c :: f, latest, r => result_foldl_step_some f latest (latest.combine r (c.holds row))

theorem getD_result_foldl_step : ∀ (f : Filter) (latest : Connective),
    (f.foldl (step row) ⟨latest, none⟩).result.getD true =
      match joined latest f with
      | [] => true
      | (_, first) :: rest =>
        rest.foldl (fun result (join, c) => join.combine result (c.holds row)) (first.holds row)
  | [], _ => rfl
  | .join c :: f, _ => getD_result_foldl_step f c
  | .test c :: f, latest =>
    congrArg (Option.getD · true) (result_foldl_step_some f latest (c.holds row))

theorem accepts_eq_getD (f : Filter) (row : Row) :
    f.accepts row = (f.evaluate row).result.getD true :=
  (getD_result_foldl_step f .and).symm

/-- Something is decided as soon as a comparison was seen. -/
theorem isSome_result_foldl_step (row : Row) : ∀ (f : Filter) (s : Progress),
    (f.foldl (step row) s).result.isSome = (s.result.isSome || f.any Term.isTest)
  | [], _ => (Bool.or_false _).symm
  | .join c :: f, s => isSome_result_foldl_step row f (step row s (.join c))
  | .test c :: f, s => by
    rw [List.foldl_cons, isSome_result_foldl_step, List.any_cons, Term.isTest, Bool.true_or,
      Bool.or_true]
    rfl

theorem accepts_append (f : Filter) (row : Row) (join : Connective) (c : Condition) :
    accepts (f ++ [.join join, .test c]) row =
      extend (f.evaluate row).result join (c.holds row) := by
  rw [accepts_eq_getD, evaluate, List.foldl_append]
  rfl

/-- With `OR` and a comparison added, a filter that compares at all accepts in either case. -/
theorem accepts_append_or {f : Filter} (hf : f.any Term.isTest = true) (row : Row) (c : Condition) :
    accepts (f ++ [.join .or, .test c]) row = (f.accepts row || c.holds row) := by
  have hsome : (f.evaluate row).result.isSome = true := by
    rw [evaluate, isSome_result_foldl_step, hf, Bool.or_true]
  obtain ⟨r, hr⟩ := Option.isSome_iff_exists.mp hsome
  rw [accepts_append, accepts_eq_getD, hr]
  rfl

/-! ## Results and connectives apart -/

/-- The results of the comparisons, in order. -/
def outcomes (row : Row) : Filter → List Bool
  | [] => []
  | .join _ :: f => outcomes row f
  | .test c :: f => c.holds row :: outcomes row f

/-- The connective in front of every comparison but the first one; `started` if that has been
seen. -/
def joins (latest : Connective) (started : Bool) : Filter → List Connective
  | [] => []
  | .join c :: f => joins c started f
  | .test _ :: f => if started then latest :: joins latest true f else joins latest true f

theorem joins_true : ∀ (f : Filter) (latest : Connective),
    joins latest true f = (joined latest f).map Prod.fst
  | [], _ => rfl
  | .join c :: f, _ => joins_true f c
  | .test _ :: f, latest => congrArg (latest :: ·) (joins_true f latest)

/-- The first comparison is joined to nothing. -/
theorem joins_false : ∀ (f : Filter) (latest : Connective),
    joins latest false f = (joined latest f).tail.map Prod.fst
  | [], _ => rfl
  | .join c :: f, _ => joins_false f c
  | .test _ :: f, latest => joins_true f latest

theorem outcomes_eq (row : Row) : ∀ (f : Filter) (latest : Connective),
    outcomes row f = (joined latest f).map fun x => x.2.holds row
  | [], _ => rfl
  | .join c :: f, _ => outcomes_eq row f c
  | .test c :: f, latest => congrArg (c.holds row :: ·) (outcomes_eq row f latest)

theorem accepts_eq_zip (f : Filter) (row : Row) : f.accepts row =
    match outcomes row f with
    | [] => true
    | first :: rest =>
      ((joins .and false f).zip rest).foldl (fun result (join, o) => join.combine result o) first := by
  rw [accepts, joins_false, outcomes_eq row f .and]
  cases joined .and f with
  | nil => rfl
  | cons x rest =>
    show _ = ((rest.map Prod.fst).zip (rest.map fun x => x.2.holds row)).foldl _ _
    rw [List.zip_map', List.foldl_map]

/-! ## The columns that a filter reads -/

/-- The columns that the comparisons read, in order. -/
def columns : Filter → List String
  | [] => []
  | .join _ :: f => columns f
  | .test c :: f => c.column :: columns f

/-- Rows with the same values in these columns have the same outcomes. -/
theorem outcomes_congr {row row' : Row} : ∀ f : Filter,
    (∀ c ∈ columns f, row.get? c = row'.get? c) → outcomes row f = outcomes row' f
  | [], _ => rfl
  | .join _ :: f, h => outcomes_congr f h
  | .test c :: f, h => by
    obtain ⟨hhead, htail⟩ := List.forall_mem_cons.mp h
    have hholds : c.holds row = c.holds row' := by rw [Condition.holds, Condition.holds, hhead]
    rw [outcomes, outcomes, hholds, outcomes_congr f htail]

theorem accepts_congr {f : Filter} {row row' : Row}
    (h : ∀ c ∈ f.columns, row.get? c = row'.get? c) : f.accepts row = f.accepts row' := by
  rw [accepts_eq_zip, accepts_eq_zip, outcomes_congr f h]

/-- A column that the filter does not read may have any value. -/
theorem accepts_set {f : Filter} {column : String} (h : column ∉ f.columns) (row : Row)
    (value : String) : f.accepts (row.set column value) = f.accepts row := by
  refine accepts_congr fun c hc => ?_
  rw [Row.get?_set, if_neg (ne_of_mem_of_not_mem hc h)]

/-! ## All evaluations agree -/

/-- A filter is evaluated from left to right : in one pass that takes the result of the first
comparison, joins every further one to the result so far by the last connective before it, `AND`
before any, and accepts if there was none; or from the results and the connectives apart. With
`AND` and a comparison added at its end a filter accepts the rows that it accepts and of which the
comparison holds, and with `OR` those of which either is true, provided that it compares at all. -/
theorem accepts_eq (f : Filter) (row : Row) :
    f.accepts row = (f.evaluate row).result.getD true ∧
    (f.accepts row =
      match outcomes row f with
      | [] => true
      | first :: rest =>
        ((joins .and false f).zip rest).foldl (fun result (join, o) => join.combine result o)
          first) ∧
    ∀ c : Condition,
      accepts (f ++ [.join .and, .test c]) row = (f.accepts row && c.holds row) ∧
      accepts (f ++ [.join .or, .test c]) row =
        if f.any Term.isTest then f.accepts row || c.holds row else c.holds row := by
  refine ⟨accepts_eq_getD f row, accepts_eq_zip f row, fun c => ?_⟩
  have hsome := isSome_result_foldl_step row f start
  rw [accepts_append, accepts_append, accepts_eq_getD]
  rw [← evaluate] at hsome
  cases hresult : (f.evaluate row).result with
  | none =>
    rw [hresult] at hsome
    have hany : f.any Term.isTest = false := hsome.symm
    rw [hany]
    exact ⟨(Bool.true_and _).symm, rfl⟩
  | some r =>
    rw [hresult] at hsome
    have hany : f.any Term.isTest = true := hsome.symm
    rw [hany]
    exact ⟨rfl, rfl⟩

end Filter

end TableEngine
