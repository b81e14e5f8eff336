import TableEngine.Proofs.Store.Identity
import TableEngine.Proofs.Table.Assignment

/-!
# Updates that do not see each other

An update reads the columns of its filter and writes one column. Two updates of different columns,
neither of which reads the column that the other writes, may be made in either order, and an update
that does not read its own column may be made twice : the table is the same, slot for slot, and so
are the counts (`Table.update_comm_after`).

This holds of every row (`Filter.assign_comm`, `Filter.assign_assign`), since neither update changes
whether the other filter accepts it. It holds of the whole table because updates keep the outline of
the store, so that tables can be compared key by key (`Table.eq_of_outline`).
-/

namespace TableEngine

/-- The value that is written last remains. -/
theorem Row.set_set (row : Row) (column x y : String) :
    (row.set column x).set column y = row.set column y :=
  ext_get? fun c => by
    rw [get?_set, get?_set, get?_set]
    split <;> rfl

/-! ## One row -/

namespace Filter

/-- The row with the column set, if the filter accepts it. -/
def assign (f : Filter) (column value : String) (row : Row) : Row :=
  if f.accepts row then row.set column value else row

variable {f g : Filter} {c d : String} (x y : String) (row : Row)

theorem accepts_assign (hg : c ∉ g.columns) : g.accepts (f.assign c x row) = g.accepts row := by
  unfold assign
  split
  · exact accepts_set hg row x
  · rfl

theorem assign_comm (hcd : c ≠ d) (hf : d ∉ f.columns) (hg : c ∉ g.columns) :
    g.assign d y (f.assign c x row) = f.assign c x (g.assign d y row) := by
  have hfirst : f.accepts (g.assign d y row) = f.accepts row := accepts_assign y row hf
  have hsecond : g.accepts (f.assign c x row) = g.accepts row := accepts_assign x row hg
  rw [assign, hsecond, assign.eq_def f c x (g.assign d y row), hfirst, assign, assign]
  split
  · split
    · exact Row.set_comm row hcd x y
    · rfl
  · rfl

theorem assign_assign (hf : c ∉ f.columns) :
    f.assign c x (f.assign c x row) = f.assign c x row := by
  have hsame : f.accepts (f.assign c x row) = f.accepts row := accepts_assign x row hf
  rw [assign.eq_def f c x (f.assign c x row), hsame, assign]
  split
  · exact Row.set_set row c x x
  · rfl

end Filter

namespace Table

/-! ## All rows -/

/-- Tables of one scheme with the same keys at the same places and the same rows are equal. -/
theorem eq_of_outline {t u : Table} (ht : t.rows.Sound) (hu : u.rows.Sound)
    (hscheme : t.SameScheme u) (houtline : t.rows.outline = u.rows.outline)
    (hget : ∀ key, t.get? key = u.get? key) : t = u := by
  have hrows : t.rows = u.rows := ht.eq_of_outline hu houtline hget
  obtain ⟨name, columns, rows⟩ := t
  obtain rfl : name = u.name := hscheme.name_eq
  obtain rfl : columns = u.columns := hscheme.columns_eq
  obtain rfl : rows = u.rows := hrows
  rfl

section Updates

variable {t : Table} (h : t.rows.Sound) {c d : String} (x y : String) {f g : Filter}
include h

/-- A filter that does not read the column matches as before. -/
theorem matchesAt_update (hg : c ∉ g.columns) (f : Filter) (key : String) :
    (t.update c x f).2.matchesAt g key = t.matchesAt g key := by
  rw [matchesAt, matchesAt, get?_update h, Option.any_map]
  exact congrArg (Option.any · (t.get? key))
    (funext fun row => Filter.accepts_assign (f := f) x row hg)

/-- An update counts the same rows after another one that writes a column it does not read. -/
theorem count_update_update (hg : c ∉ g.columns) (f : Filter) (d y : String) :
    ((t.update c x f).2.update d y g).1 = (t.update d y g).1 := by
  have hkeys : (t.update c x f).2.keys = t.keys :=
    Store.keys_eq_of_outline (outline_update c x t f)
  rw [count_update d y (sound_update h c x f), count_update d y h, hkeys]
  exact List.countP_congr fun key _ => by rw [matchesAt_update h x hg]

/-- Two updates assign to every row, one after the other. -/
theorem get?_update_update (c x d y : String) (f g : Filter) (key : String) :
    ((t.update c x f).2.update d y g).2.get? key =
      (t.get? key).map fun row => g.assign d y (f.assign c x row) := by
  rw [get?_update (sound_update h c x f), get?_update h, Option.map_map]
  rfl

theorem update_comm (hcd : c ≠ d) (hf : d ∉ f.columns) (hg : c ∉ g.columns) :
    ((t.update c x f).2.update d y g).2 = ((t.update d y g).2.update c x f).2 := by
  have hscheme : ∀ (c x d y : String) (f g : Filter),
      ((t.update c x f).2.update d y g).2.SameScheme t := fun c x d y f g =>
    (sameScheme_setEach d y _ _).trans (sameScheme_setEach c x _ t)
  have houtline : ∀ (c x d y : String) (f g : Filter),
      ((t.update c x f).2.update d y g).2.rows.outline = t.rows.outline := fun c x d y f g =>
    (outline_update d y _ g).trans (outline_update c x t f)
  refine eq_of_outline (sound_update (sound_update h c x f) d y g)
    (sound_update (sound_update h d y g) c x f) ((hscheme c x d y f g).trans
      (hscheme d y c x g f).symm) ((houtline c x d y f g).trans (houtline d y c x g f).symm)
    fun key => ?_
  rw [get?_update_update h, get?_update_update h]
  exact congrArg (Option.map · (t.get? key))
    (funext fun row => Filter.assign_comm x y row hcd hf hg)

/-- An update that does not read its own column changes nothing when it is made again. -/
theorem update_update (hf : c ∉ f.columns) :
    (t.update c x f).2.update c x f = t.update c x f := by
  have hsound : (t.update c x f).2.rows.Sound := sound_update h c x f
  refine Prod.ext (count_update_update h x hf f c x) (eq_of_outline (sound_update hsound c x f)
    hsound (sameScheme_setEach c x _ _) (outline_update c x _ f) fun key => ?_)
  rw [get?_update_update h, get?_update h]
  exact congrArg (Option.map · (t.get? key)) (funext fun row => Filter.assign_assign x row hf)

end Updates

/-- In every table that changes lead to, two updates of different columns, of which neither reads
the column that the other writes, lead in both orders to the same table, slot for slot or bucket
for bucket, and each of them answers the same count first or second. An update that does not read
its own column answers the same count once more and changes nothing. -/
theorem update_comm_after (name : String) (columns : List String) (σ : Strategy)
    (changes : List Change) (c x : String) (f : Filter) :
    let t := (empty name columns σ).after changes
    (∀ (d y : String) (g : Filter), c ≠ d → d ∉ f.columns → c ∉ g.columns →
      let cd := (t.update c x f).2.update d y g
      let dc := (t.update d y g).2.update c x f
      cd.2 = dc.2 ∧ cd.1 = (t.update d y g).1 ∧ dc.1 = (t.update c x f).1) ∧
    (c ∉ f.columns → (t.update c x f).2.update c x f = t.update c x f) := by
  intro t
  have h : t.rows.Sound := sound_after changes (Store.sound_empty σ)
  refine ⟨fun d y g hcd hf hg => ?_, update_update h x⟩
  exact ⟨update_comm h x y hcd hf hg, count_update_update h x hg f d y,
    count_update_update h y hf g c x⟩

/-- Each of two filters reads the column that its own update writes. One of them is used for the
column that it does not read. The rows that are selected show what has been written. -/
theorem update_comm_after_own :
    let changes := [.insert "1" (.ofPairs [("a", "1"), ("b", "2")]),
      .insert "2" (.ofPairs [("a", "1"), ("b", "5")])]
    let t := (empty "t" ["a", "b"] .chaining).after changes
    let f : Filter := [.test ⟨"a", .equal, some "1"⟩]
    let g : Filter := [.test ⟨"b", .equal, some "2"⟩]
    "a" ≠ "b" ∧ "b" ∉ f.columns ∧ "a" ∉ g.columns ∧
      ((t.update "a" "9" f).2.update "b" "8" g).2 = ((t.update "b" "8" g).2.update "a" "9" f).2 ∧
      (t.update "a" "9" f).1 = 2 ∧ ((t.update "b" "8" g).2.update "a" "9" f).1 = 2 ∧
      (((t.update "a" "9" f).2.update "b" "8" g).2.select []).rows =
        [[some "9", some "8"], [some "9", some "5"]] ∧
      (t.update "a" "9" g).2.update "a" "9" g = t.update "a" "9" g ∧
      ((t.update "a" "9" g).2.select []).rows =
        [[some "9", some "2"], [some "1", some "5"]] := by
  intro changes t f g
  have hne : "a" ≠ "b" := by decide
  have hf : "b" ∉ f.columns := by decide
  have hg : "a" ∉ g.columns := by decide
  have hcount : (t.update "a" "9" f).1 = 2 := by decide +kernel
  obtain ⟨hcomm, -⟩ := update_comm_after "t" ["a", "b"] .chaining changes "a" "9" f
  obtain ⟨hsame, -, hagain⟩ := hcomm "b" "8" g hne hf hg
  have hrepeat := (update_comm_after "t" ["a", "b"] .chaining changes "a" "9" g).2 hg
  exact ⟨hne, hf, hg, hsame, hcount, hagain.trans hcount, by decide +kernel, hrepeat,
    by decide +kernel⟩

end Table

end TableEngine
