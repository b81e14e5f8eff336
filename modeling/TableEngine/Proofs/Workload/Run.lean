import TableEngine.Proofs.Workload.Tables
import TableEngine.Workload.Run

/-!
# A run of the workload

A run succeeds if none of its three tables is there beforehand, and then none of its
statements fails, whatever is drawn (`run_report`). Otherwise it stops at the first table that
is there, and leaves the tables it created before that one.

What a plan executes is fixed before there is a database : the generator draws it from the seed
(`Plan.script`). All of it suits the tables (`suits_script`), so it is executed to the end, and a
run that gets so far has nothing to tally but the shapes that were drawn
(`runQueries_of_executeAll`, `run_of_executeAll`).
-/

namespace TableEngine.Workload

open Sampling

variable {db db' : Database} {g : Generator}

/-! ## What a plan executes -/

/-- Draw statements. -/
def drawQueries (g : Generator) : Nat → Draw g (List (Shape × String))
  | 0 => return []
  | n + 1 => do
    let drawn ← query g
    return drawn :: (← drawQueries g n)

/-- What there is to execute once the tables are created. -/
structure Script where
  /-- The rows that fill the tables. -/
  rows : List String
  /-- The statements that are drawn, each with its shape. -/
  drawn : List (Shape × String)

/-- All that the generator draws for a plan, from the state of the seed on. -/
def Plan.script (plan : Plan) (g : Generator) : Script :=
  match (prepopulation g plan.prepopulate).run (g.ofSeed plan.seed) with
  | (rows, state) => ⟨rows, ((drawQueries g plan.queries).run state).1⟩

namespace Script

def shapes (s : Script) : List Shape := s.drawn.map Prod.fst

/-- The statements of a run, in order. -/
def texts (s : Script) : List String := creations ++ (s.rows ++ s.drawn.map Prod.snd)

end Script

theorem yields_drawQueries (hg : g.InRange) : ∀ n, (drawQueries g n).Yields fun drawn =>
    drawn.length = n ∧ ∀ q ∈ drawn, Suits q.2
  | 0 => .pure ⟨rfl, nofun⟩
  | n + 1 => (yields_query hg).bind fun _ hq => (yields_drawQueries hg n).bind fun _ hdrawn =>
    .pure ⟨congrArg (· + 1) hdrawn.1, List.forall_mem_cons.mpr ⟨hq, hdrawn.2⟩⟩

/-- As many rows and statements as the plan asks for. -/
theorem length_script (hg : g.InRange) (plan : Plan) :
    (plan.script g).rows.length = 3 * plan.prepopulate ∧
      (plan.script g).drawn.length = plan.queries :=
  ⟨length_prepopulation plan.prepopulate _, (yields_drawQueries hg plan.queries _).1⟩

theorem suits_script (hg : g.InRange) (plan : Plan) :
    ∀ text ∈ (plan.script g).rows ++ (plan.script g).drawn.map Prod.snd, Suits text :=
  List.forall_mem_append.mpr ⟨yields_prepopulation hg plan.prepopulate _,
    List.forall_mem_map.mpr (yields_drawQueries hg plan.queries _).2⟩

/-! ## The tally -/

namespace Tally

theorem count_zero (s : Shape) : zero.count s = 0 := by
  cases s <;> rfl

theorem count_draw (t : Tally) (shape s : Shape) :
    (t.draw shape).count s = t.count s + if shape = s then 1 else 0 := by
  have hindex : shape.index.val = s.index.val ↔ shape = s := by
    cases shape <;> cases s <;> decide
  simp only [count, draw, Fin.getElem_fin, Vector.getElem_set, hindex]
  split
  · next h => rw [h]
  · rfl

/-- Every statement counts for its shape. -/
theorem count_foldl_draw (s : Shape) : ∀ (shapes : List Shape) (t : Tally),
    (shapes.foldl draw t).count s = t.count s + shapes.count s
  | [], _ => rfl
  | shape :: shapes, t => by
    rw [List.foldl_cons, count_foldl_draw s shapes, count_draw, List.count_cons]
    simp only [beq_iff_eq]
    omega

theorem failed_foldl_draw : ∀ (shapes : List Shape) (t : Tally),
    (shapes.foldl draw t).failed = t.failed
  | [], _ => rfl
  | shape :: shapes, t => failed_foldl_draw shapes (t.draw shape)

end Tally

theorem sum_count (shapes : List Shape) : (Shape.all.map shapes.count).sum = shapes.length := by
  induction shapes with
  | nil => rfl
  | cons shape shapes ih =>
    simp only [Shape.all, List.map_cons, List.map_nil, List.sum_cons, List.sum_nil] at ih ⊢
    cases shape <;> simp <;> omega

/-! ## The run -/

/-- Two lists of statements succeed one after the other if the two together do. -/
theorem executeAll_append_eq_ok_iff {second : List String} :
    ∀ {first : List String} {db : Database}, db.executeAll (first ++ second) = (.ok (), db') ↔
      ∃ mid, db.executeAll first = (.ok (), mid) ∧ mid.executeAll second = (.ok (), db')
  | [], db => by simp [Database.executeAll]
  | text :: texts, db => by
    rw [List.cons_append, Database.executeAll, Database.executeAll]
    rcases db.execute text with ⟨fault | outcome, mid⟩
    · simp
    · exact executeAll_append_eq_ok_iff

/-- The statements that are drawn are executed in order. If none fails, all that the tally has is
their shapes. -/
theorem runQueries_of_executeAll : ∀ {db : Database} (state : g.State) (tally : Tally) (n : Nat),
    db.executeAll (((drawQueries g n).run state).1.map Prod.snd) = (.ok (), db') →
      runQueries g db state tally n =
        ((((drawQueries g n).run state).1.map Prod.fst).foldl .draw tally, db')
  | db, _, _, 0, h => by
    cases h
    rfl
  | db, state, tally, n + 1, h => by
    have hdrawn : ((drawQueries g (n + 1)).run state).1 =
        ((query g).run state).1 :: ((drawQueries g n).run ((query g).run state).2).1 := rfl
    rw [hdrawn, List.map_cons, Database.executeAll] at h
    rw [hdrawn, runQueries, List.map_cons, List.foldl_cons]
    generalize (query g).run state = next at h ⊢
    obtain ⟨⟨shape, text⟩, state⟩ := next
    simp only at h ⊢
    generalize db.execute text = step at h ⊢
    obtain ⟨fault | outcome, mid⟩ := step
    · cases h
    · exact runQueries_of_executeAll state (tally.draw shape) n h

/-- The report of a plan, none of whose statements fails. -/
def Plan.report (plan : Plan) (g : Generator) : Report :=
  ⟨plan.queries, 0, ((plan.script g).shapes.foldl .draw Tally.zero).drawn⟩

theorem count_report (plan : Plan) (shape : Shape) :
    (plan.report g).count shape = (plan.script g).shapes.count shape := by
  have hcount := Tally.count_foldl_draw shape (plan.script g).shapes .zero
  rwa [Tally.count_zero, Nat.zero_add] at hcount

theorem run_of_executeAll (plan : Plan)
    (h : db.executeAll (plan.script g).texts = (.ok (), db')) :
    run db plan g = (.ok (plan.report g), db') := by
  obtain ⟨created, hcreate, h⟩ := executeAll_append_eq_ok_iff.mp h
  obtain ⟨filled, hrows, hdrawn⟩ := executeAll_append_eq_ok_iff.mp h
  rw [run, hcreate, Plan.report, Script.shapes]
  unfold Plan.script at hrows hdrawn ⊢
  generalize (prepopulation g plan.prepopulate).run (g.ofSeed plan.seed) = seeded at hrows hdrawn ⊢
  obtain ⟨rows, state⟩ := seeded
  simp only [hrows, runQueries_of_executeAll state .zero plan.queries hdrawn,
    Tally.failed_foldl_draw]
  rfl

/-- Every plan has one report, whatever the database and its store : as many statements as it asks
for, of each shape as many as are drawn of it, and none that failed. If none of the three tables is
there, a run executes the statements of the plan's script in order, each with success, and answers
this report; the three tables stand behind those that were there, which are unchanged. Otherwise
it answers that the first of the three that is there exists, and all that has changed is that
those before it are there now, and empty. -/
theorem run_report (hg : g.InRange) (plan : Plan) :
    (plan.script g).rows.length = 3 * plan.prepopulate ∧
    (plan.script g).drawn.length = plan.queries ∧
    ∃ report : Report, report.executed = plan.queries ∧ report.failed = 0 ∧
      (∀ shape, report.count shape = (plan.script g).shapes.count shape) ∧
      (Shape.all.map report.count).sum = plan.queries ∧
      ∀ db : Database,
        ((∀ s ∈ schemas, db.table? s.1 = none) ∧
          ∃ db', db.executeAll (plan.script g).texts = (.ok (), db') ∧
            run db plan g = (.ok report, db') ∧ Filled db db') ∨
        ∃ before s after, schemas = before ++ s :: after ∧ (∀ u ∈ before, db.table? u.1 = none) ∧
          (db.table? s.1).isSome ∧
          run db plan g = (.error (.tableExists s.1), withTables db before) := by
  obtain ⟨hrows, hdrawn⟩ := length_script hg plan
  refine ⟨hrows, hdrawn, plan.report g, rfl, rfl, count_report plan, ?_, fun db => ?_⟩
  · rw [List.map_congr_left fun shape _ => count_report plan shape, sum_count, Script.shapes,
      List.length_map, hdrawn]
  · have hnodup : (schemas.map Prod.fst).Nodup := by decide
    rcases executeAll_create db map_ofText_creations hnodup with ⟨hnew, hcreate⟩ |
      ⟨before, s, after, hschemas, hnew, hs, hcreate⟩
    · obtain ⟨db', hscript, h'⟩ :=
        (filled_withTables db).executeAll hnew (suits_script hg plan)
      have htexts := executeAll_append_eq_ok_iff.mpr ⟨_, hcreate, hscript⟩
      exact Or.inl ⟨hnew, db', htexts, run_of_executeAll plan htexts, h'⟩
    · refine Or.inr ⟨before, s, after, hschemas, hnew, hs, ?_⟩
      rw [run, hcreate]

/-- Three statements over tables of two rows, drawn from the ChaCha stream of a seed. Empty
databases of two strategies give one report. A database that has only the last of the tables is
left with the two before it, and draws nothing. -/
theorem run_report_chacha :
    let plan : Plan := ⟨3, 2, 42⟩
    let probed := Database.empty ⟨.probing .quadratic, "id"⟩
    let chained := Database.empty ⟨.chaining, "name"⟩
    let stocked := (chained.create "orders" ["item"]).2
    chacha.InRange ∧ (plan.script chacha).rows.length = 6 ∧
      (plan.script chacha).drawn.length = 3 ∧
      ∃ report : Report, report.executed = 3 ∧ report.failed = 0 ∧
        Shape.all.map report.count = Shape.all.map (plan.script chacha).shapes.count ∧
        (Shape.all.map report.count).sum = 3 ∧
        (∃ db', probed.executeAll (plan.script chacha).texts = (.ok (), db') ∧
          run probed plan = (.ok report, db') ∧
          db'.tables.map (fun t => (t.name, t.columns)) = schemas) ∧
        (∃ db', chained.executeAll (plan.script chacha).texts = (.ok (), db') ∧
          run chained plan = (.ok report, db') ∧
          db'.tables.map (fun t => (t.name, t.columns)) = schemas) ∧
        run stocked plan = (.error (.tableExists "orders"), withTables stocked
          [("users", ["id", "name", "age", "city"]),
            ("products", ["id", "name", "price", "category"])]) := by
  intro plan probed chained stocked
  obtain ⟨hrows, hdrawn, report, hexecuted, hfailed, hcount, hsum, hrun⟩ :=
    run_report inRange_chacha plan
  have hempty (settings : Settings) : ∃ db',
      (Database.empty settings).executeAll (plan.script chacha).texts = (.ok (), db') ∧
        run (.empty settings) plan = (.ok report, db') ∧
        db'.tables.map (fun t => (t.name, t.columns)) = schemas := by
    rcases hrun (.empty settings) with ⟨-, db', hscript, h, hfilled⟩ | ⟨-, s, -, -, -, hs, -⟩
    · obtain ⟨added, htables, hadded⟩ := hfilled.tables
      exact ⟨db', hscript, h, htables ▸ hadded⟩
    · cases hs
  refine ⟨inRange_chacha, hrows, hdrawn, report, hexecuted, hfailed,
    List.map_congr_left fun shape _ => hcount shape, hsum, hempty _, hempty _, ?_⟩
  rcases hrun stocked with ⟨hnew, -⟩ | ⟨before, s, after, hschemas, -, hs, h⟩
  · cases hnew ("orders", ["id", "user_id", "product_id", "quantity"]) (by decide)
  · rcases before with _ | ⟨users, _ | ⟨products, _ | ⟨orders, before⟩⟩⟩
    · cases hschemas
      cases hs
    · cases hschemas
      cases hs
    · cases hschemas
      exact h
    · simp [schemas] at hschemas

end TableEngine.Workload
