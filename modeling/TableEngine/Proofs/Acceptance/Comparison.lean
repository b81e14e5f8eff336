import TableEngine.Acceptance.Student
import TableEngine.Proofs.Engine.Agreement
import TableEngine.Proofs.Engine.Display
import TableEngine.Proofs.Text.Lines

/-!
# Outputs that are compared up to the order of rows

Two outputs are the same if the first lines are equal and the others are, up to their order and
with their number (`sameOutput_iff`).

This is what the strategy of a database can change. Selections on agreeing databases list
the same rows in some order, and no stored value breaks a line or leaves one empty, so
the lines of the text are the header and the rows (`Answer.lines_text`). Everything else
they answer is equal. A check therefore passes under every strategy or under none
(`verdicts_after`).
-/

namespace TableEngine

open Text

/-! ## Comparing lines -/

namespace Acceptance

theorem perm_sorted (lines : List String) : (sorted lines).Perm lines := List.mergeSort_perm _ _

theorem pairwise_sorted (lines : List String) : (sorted lines).Pairwise (· ≤ ·) := by
  have h : (sorted lines).Pairwise fun a b => decide (a ≤ b) = true := by
    refine List.pairwise_mergeSort (fun a b c hab hbc => ?_) (fun a b => ?_) lines
    · exact decide_eq_true (String.le_trans (of_decide_eq_true hab) (of_decide_eq_true hbc))
    · simpa using String.le_total a b
  exact h.imp of_decide_eq_true

/-- Sorted lists are equal exactly if one list is a permutation of the other. -/
theorem sorted_eq_iff {ls ms : List String} : sorted ls = sorted ms ↔ ls.Perm ms := by
  constructor
  · intro h
    exact (perm_sorted ls).symm.trans (h ▸ perm_sorted ms)
  · intro h
    exact ((perm_sorted ls).trans (h.trans (perm_sorted ms).symm)).eq_of_pairwise
      (fun _ _ _ _ => String.le_antisymm) (pairwise_sorted ls) (pairwise_sorted ms)

theorem sameOutput_iff {expected actual : List String} : sameOutput expected actual = true ↔
    (expected = [] ∧ actual = []) ∨
    ∃ first ls ms, expected = first :: ls ∧ actual = first :: ms ∧ ls.Perm ms := by
  cases expected with
  | nil => cases actual <;> simp [sameOutput]
  | cons e ls =>
    cases actual with
    | nil => simp [sameOutput]
    | cons a ms =>
      have h : sameOutput (e :: ls) (a :: ms) = true ↔ e = a ∧ ls.Perm ms := by
        simp [sameOutput, sorted_eq_iff]
      rw [h]
      constructor
      · rintro ⟨rfl, hperm⟩
        exact Or.inr ⟨e, ls, ms, rfl, rfl, hperm⟩
      · rintro (⟨⟨⟩, -⟩ | ⟨first, ls, ms, ⟨⟩, ⟨⟩, hperm⟩)
        exact ⟨rfl, hperm⟩

theorem sameOutput_refl (ls : List String) : sameOutput ls ls = true := by
  cases ls <;> simp [sameOutput]

theorem equivalence_sameOutput :
    Equivalence fun expected actual => sameOutput expected actual = true := by
  refine ⟨sameOutput_refl, fun {ls ms} h => ?_, fun {ls ms ns} h h' => ?_⟩
  · rw [sameOutput_iff] at h ⊢
    rcases h with ⟨rfl, rfl⟩ | ⟨first, ls, ms, rfl, rfl, h⟩
    · exact Or.inl ⟨rfl, rfl⟩
    · exact Or.inr ⟨first, ms, ls, rfl, rfl, h.symm⟩
  · rw [sameOutput_iff] at h h' ⊢
    rcases h with ⟨rfl, rfl⟩ | ⟨first, ls, ms, rfl, rfl, h⟩
    · exact h'
    · obtain ⟨hms, -⟩ | ⟨first', ms', ns, hms, rfl, h'⟩ := h'
      · cases hms
      · cases hms
        exact Or.inr ⟨first, ls, ns, rfl, rfl, h.trans h'⟩

end Acceptance

open Acceptance

/-! ## The lines of an answer -/

namespace Answer

theorem isLine_line {cells : List String} (hne : cells ≠ []) (h : ∀ cell ∈ cells, Tidy cell) :
    IsLine (line cells) where
  ne_nil hnil := by
    have hcells : pieces '\t' (line cells) = cells := pieces_line h hne
    have hempty : pieces '\t' (line cells) = [""] := by
      rw [pieces, hnil]
      rfl
    exact (h "" (by rw [← hcells, hempty]; exact List.mem_cons_self)).ne_nil rfl
  no_lineFeed := not_mem_line h (by decide) (by decide) (by decide)
  no_return := not_mem_line h (by decide) (by decide) (by decide)

/-- With rows in another order the text is the same up to the order of its lines. -/
theorem sameOutput_text {a b : Answer}
    (h : ∀ l ∈ line a.columns :: a.rows.map rowLine, IsLine l) (hcolumns : a.columns = b.columns)
    (hrows : a.rows.Perm b.rows) :
    sameOutput (normalLines a.text) (normalLines b.text) = true := by
  have hperm : (a.rows.map rowLine).Perm (b.rows.map rowLine) := hrows.map rowLine
  obtain ⟨hheader, hlines⟩ := List.forall_mem_cons.mp h
  have ha : lines a.text = line a.columns :: a.rows.map rowLine := lines_intercalate h
  have hb : lines b.text = line b.columns :: b.rows.map rowLine :=
    lines_intercalate (List.forall_mem_cons.mpr
      ⟨hcolumns ▸ hheader, fun l hl => hlines l (hperm.mem_iff.mpr hl)⟩)
  rw [normalLines, normalLines, ha, hb, hcolumns, sameOutput_iff]
  exact Or.inr ⟨_, _, _, List.map_cons, List.map_cons, hperm.map _⟩

end Answer

/-- An orderly table has a line for its header and for each of its rows. -/
theorem Table.Orderly.isLine_of_select {t : Table} (h : t.Orderly) (f : Filter) :
    ∀ l ∈ Answer.line (t.select f).columns :: (t.select f).rows.map Answer.rowLine, IsLine l := by
  obtain ⟨rows, hrows, hcells⟩ := h.exists_rows_select f
  have hheader : IsLine (Answer.line t.columns) :=
    Answer.isLine_line h.columns_ne_nil h.tidy_columns
  refine List.forall_mem_cons.mpr ⟨hheader, ?_⟩
  rw [hrows, List.map_map]
  refine List.forall_mem_map.mpr fun cells hmem => ?_
  obtain ⟨hlen, htidy⟩ := hcells cells hmem
  have hne : cells ≠ [] := by
    rw [← List.length_pos_iff, hlen]
    exact List.length_pos_iff.mpr h.columns_ne_nil
  rw [Function.comp, Answer.rowLine_map_some]
  exact Answer.isLine_line hne htidy

/-! ## Agreeing databases -/

namespace Database

variable {d e db : Database}

/-- Only a selection answers rows. -/
theorem exists_select_of_rows {text : String} {a : Answer}
    (h : (db.execute text).1 = .ok (.rows a)) : ∃ t ∈ db.tables, ∃ f, a = t.select f := by
  unfold execute at h
  split at h
  · cases h
  · next st _ =>
    rcases db.apply_inversion st with ⟨_, happly⟩ | ⟨_, -, -, happly⟩ | ⟨f, t, -, ht, happly⟩ |
      ⟨t, outcome, t', -, halters, happly⟩
    all_goals rw [happly] at h
    · cases h
    · cases h
    · cases h
      exact ⟨t, List.mem_of_find?_eq_some ht, f, rfl⟩
    · cases h
      cases halters

namespace Agree

theorem after : ∀ {d e : Database} (texts : List String), d.Agree e →
    (d.after texts).Agree (e.after texts)
  | _, _, [], h => h
  | _, _, text :: texts, h => after texts (h.execute text).2

/-- Both lists of statements end at the same place, or neither fails. -/
theorem executeAll : ∀ {d e : Database} (texts : List String), d.Agree e →
    (d.executeAll texts).1 = (e.executeAll texts).1 ∧
      (d.executeAll texts).2.Agree (e.executeAll texts).2
  | _, _, [], h => ⟨rfl, h⟩
  | d, e, text :: texts, h => by
    obtain ⟨hresult, hagree⟩ := h.execute text
    rw [Database.executeAll, Database.executeAll]
    generalize d.execute text = step at hresult hagree
    generalize e.execute text = step' at hresult hagree
    obtain ⟨r, d⟩ := step
    obtain ⟨r', e⟩ := step'
    rcases hresult.cases with heq | ⟨a, b, ha, hb, -⟩
    · obtain rfl : r = r' := heq
      cases r with
      | error fault => exact ⟨rfl, hagree⟩
      | ok outcome => exact executeAll texts hagree
    · obtain rfl : r = _ := ha
      obtain rfl : r' = _ := hb
      exact executeAll texts hagree

variable (h : d.Agree e) (horderly : ∀ t ∈ d.tables, t.Orderly)
include h horderly

theorem sameOutput_run (text : String) :
    sameOutput (normalLines (d.run text).1) (normalLines (e.run text).1) = true := by
  show sameOutput (normalLines (report (d.execute text).1))
    (normalLines (report (e.execute text).1)) = true
  rcases (h.execute text).1.cases with heq | ⟨a, b, ha, hb, hcolumns, hrows⟩
  · rw [heq]
    exact sameOutput_refl _
  · obtain ⟨t, ht, f, rfl⟩ := exists_select_of_rows ha
    rw [ha, hb]
    exact Answer.sameOutput_text ((horderly t ht).isLine_of_select f) hcolumns hrows

end Agree

end Database

namespace Acceptance

/-- The same output is expected of both or of neither. -/
theorem sameOutput_congr (expected : List String) {ls ms : List String}
    (h : sameOutput ls ms = true) : sameOutput expected ls = sameOutput expected ms :=
  Bool.eq_iff_iff.mpr ⟨fun h' => equivalence_sameOutput.trans h' h,
    fun h' => equivalence_sameOutput.trans h' (equivalence_sameOutput.symm h)⟩

theorem passed_judge : ∀ (checks : List Check) {d e : Database}, d.Agree e →
    (∀ t ∈ d.tables, t.Orderly) →
      (judge d checks).1.map Verdict.passed = (judge e checks).1.map Verdict.passed
  | [], _, _, _, _ => rfl
  | check :: checks, d, e, h, horderly => by
    have hpassed := sameOutput_congr check.expected (h.sameOutput_run horderly check.query)
    have hrest := passed_judge checks (h.execute check.query).2
      (Database.orderly_execute horderly check.query)
    exact congrArg₂ List.cons hpassed hrest

theorem passed_run {d e : Database} (h : d.Agree e) (horderly : ∀ t ∈ d.tables, t.Orderly) :
    (run d).1.map (List.map Verdict.passed) = (run e).1.map (List.map Verdict.passed) := by
  obtain ⟨hresult, hagree⟩ := h.executeAll setUp
  have hkept := Database.orderly_executeAll setUp horderly
  -- this holds of any checks; with the texts of these the checker would begin to read them
  obtain ⟨list, hlist⟩ : ∃ list, list = checks := ⟨_, rfl⟩
  rw [run, run, ← hlist]
  generalize d.executeAll setUp = end_d at hresult hagree hkept
  generalize e.executeAll setUp = end_e at hresult hagree
  obtain ⟨r, d⟩ := end_d
  obtain ⟨r', e⟩ := end_e
  obtain rfl : r = r' := hresult
  cases r with
  | error fault => rfl
  | ok _ => exact congrArg Except.ok (passed_judge list hagree hkept)

/-- Outputs are the same if they are both empty, or begin with the same line and have the same
further lines, each as often, in some order; so this is an equivalence. Two databases
without tables, of the same key column but different strategies, given the same texts,
answer every text with the same output. Any checks therefore have the same verdicts on both,
and so has the acceptance run. -/
theorem sameOutput_after :
    (∀ expected actual, sameOutput expected actual = true ↔ (expected = [] ∧ actual = []) ∨
      ∃ first ls ms, expected = first :: ls ∧ actual = first :: ms ∧ ls.Perm ms) ∧
    (Equivalence fun expected actual => sameOutput expected actual = true) ∧
    ∀ (σ τ : Strategy) (keyColumn : String) (texts : List String),
      let d := (Database.empty ⟨σ, keyColumn⟩).after texts
      let e := (Database.empty ⟨τ, keyColumn⟩).after texts
      (∀ text, sameOutput (normalLines (d.run text).1) (normalLines (e.run text).1) = true) ∧
      (∀ checks, (judge d checks).1.map Verdict.passed = (judge e checks).1.map Verdict.passed) ∧
      (run d).1.map (List.map Verdict.passed) = (run e).1.map (List.map Verdict.passed) := by
  refine ⟨fun _ _ => sameOutput_iff, equivalence_sameOutput, fun σ τ keyColumn texts => ?_⟩
  have h := (Database.agree_empty σ τ keyColumn).after texts
  have horderly := Database.orderly_after ⟨σ, keyColumn⟩ texts
  exact ⟨h.sameOutput_run horderly, fun checks => passed_judge checks h horderly,
    passed_run h horderly⟩

end Acceptance

end TableEngine
