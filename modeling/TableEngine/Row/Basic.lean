/-!
# Rows

A row maps column names to texts. The pairs are kept in the order of the columns, each column
once, so two rows that give every column the same value are equal (`Row.ext_get?`).
-/

namespace TableEngine

/-- The pairs are in the order of their columns and no column repeats. -/
def Ascending (pairs : List (String × String)) : Prop :=
  pairs.Pairwise fun a b => a.1 < b.1

/-- Set the value of a column in ascending pairs. -/
def setPair (column value : String) : List (String × String) → List (String × String)
  | [] => [(column, value)]
  | (c, v) :: rest =>
    if c = column then (column, value) :: rest
    else if c < column then (c, v) :: setPair column value rest
    else (column, value) :: (c, v) :: rest

theorem mem_of_mem_setPair {column value : String} {pairs : List (String × String)}
    {a : String × String} (h : a ∈ setPair column value pairs) :
    a = (column, value) ∨ a ∈ pairs := by
  induction pairs with
  | nil => simpa [setPair] using h
  | cons b rest ih =>
    simp only [setPair] at h
    split at h
    · simp only [List.mem_cons] at h ⊢
      rcases h with h | h <;> simp [h]
    · split at h
      · simp only [List.mem_cons] at h ⊢
        rcases h with h | h
        · simp [h]
        · rcases ih h with h | h <;> simp [h]
      · simp only [List.mem_cons] at h ⊢
        rcases h with h | h | h <;> simp [h]

theorem ascending_setPair {pairs : List (String × String)} (h : Ascending pairs)
    (column value : String) : Ascending (setPair column value pairs) := by
  induction pairs with
  | nil => simp [setPair, Ascending]
  | cons b rest ih =>
    obtain ⟨c, v⟩ := b
    obtain ⟨hb, hr⟩ := List.pairwise_cons.mp h
    simp only [setPair]
    split
    · next he =>
      subst he
      exact List.pairwise_cons.mpr ⟨hb, hr⟩
    · next hne =>
      split
      · next hlt =>
        refine List.pairwise_cons.mpr ⟨fun a ha => ?_, ih hr⟩
        rcases mem_of_mem_setPair ha with rfl | ha
        · exact hlt
        · exact hb a ha
      · next hge =>
        have hlt : column < c := by
          rcases Std.lt_trichotomy column c with h | h | h
          · exact h
          · exact absurd h.symm hne
          · exact absurd h hge
        refine List.pairwise_cons.mpr ⟨fun a ha => ?_, h⟩
        rcases List.mem_cons.mp ha with rfl | ha
        · exact hlt
        · exact String.lt_trans hlt (hb a ha)

theorem lookup_pair (c v d : String) (rest : List (String × String)) :
    ((c, v) :: rest).lookup d = if d = c then some v else rest.lookup d := by
  by_cases h : d = c
  · simp [h]
  · simp [List.lookup_cons, h, beq_eq_false_iff_ne.mpr h]

theorem lookup_setPair (column value d : String) (pairs : List (String × String)) :
    (setPair column value pairs).lookup d = if d = column then some value else pairs.lookup d := by
  induction pairs with
  | nil => simp [setPair]
  | cons b rest ih =>
    obtain ⟨c, v⟩ := b
    simp only [setPair]
    split
    · next he =>
      subst he
      by_cases h : d = c <;> simp [lookup_pair, h]
    · next hne =>
      split
      · by_cases h : d = c
        · subst h
          simp [hne]
        · simp [lookup_pair, h, ih]
      · simp [lookup_pair]

theorem lookup_eq_none_of_lt {pairs : List (String × String)} {c : String}
    (h : ∀ a ∈ pairs, c < a.1) : pairs.lookup c = none := by
  induction pairs with
  | nil => rfl
  | cons b rest ih =>
    obtain ⟨d, v⟩ := b
    have hne : c ≠ d := fun he => String.lt_irrefl c (by simpa [← he] using h (d, v) (by simp))
    rw [lookup_pair, if_neg hne]
    exact ih fun a ha => h a (by simp [ha])

theorem lookup_eq_none_of_lt_head {pairs : List (String × String)} {b : String × String}
    (h : Ascending (b :: pairs)) {c : String} (hc : c < b.1) :
    (b :: pairs).lookup c = none :=
  lookup_eq_none_of_lt fun a ha => by
    rcases List.mem_cons.mp ha with rfl | ha
    · exact hc
    · exact String.lt_trans hc ((List.pairwise_cons.mp h).1 a ha)

theorem Ascending.ext {p q : List (String × String)} (hp : Ascending p) (hq : Ascending q)
    (h : ∀ c, p.lookup c = q.lookup c) : p = q := by
  induction p generalizing q with
  | nil =>
    match q with
    | [] => rfl
    | (b, w) :: q => simpa [lookup_pair] using h b
  | cons a p ih =>
    obtain ⟨a, v⟩ := a
    match q with
    | [] => simpa [lookup_pair] using h a
    | (b, w) :: q =>
      have hab : ¬ a < b := fun hlt => by
        simpa [lookup_eq_none_of_lt_head hq hlt, lookup_pair] using h a
      have hba : ¬ b < a := fun hlt => by
        simpa [lookup_eq_none_of_lt_head hp hlt, lookup_pair] using h b
      obtain rfl : a = b := by
        rcases Std.lt_trichotomy a b with h | h | h
        · exact absurd h hab
        · exact h
        · exact absurd h hba
      obtain rfl : v = w := by simpa [lookup_pair] using h a
      obtain ⟨hpa, hpt⟩ := List.pairwise_cons.mp hp
      obtain ⟨hqa, hqt⟩ := List.pairwise_cons.mp hq
      congr 1
      refine ih hpt hqt fun c => ?_
      by_cases hc : c = a
      · subst hc
        rw [lookup_eq_none_of_lt hpa, lookup_eq_none_of_lt hqa]
      · simpa [lookup_pair, hc] using h c

/-- A row: columns with their values, in the order of the columns. -/
structure Row where
  pairs : List (String × String)
  ascending : Ascending pairs
  deriving DecidableEq

namespace Row

/-- The row without columns. -/
def empty : Row := ⟨[], List.Pairwise.nil⟩

/-- The value of a column. -/
def get? (r : Row) (column : String) : Option String := r.pairs.lookup column

def contains (r : Row) (column : String) : Bool := (r.get? column).isSome

/-- The number of columns. -/
def size (r : Row) : Nat := r.pairs.length

def isEmpty (r : Row) : Bool := r.pairs.isEmpty

/-- Set the value of a column. -/
def set (r : Row) (column value : String) : Row :=
  ⟨setPair column value r.pairs, ascending_setPair r.ascending column value⟩

theorem get?_set (r : Row) (column value d : String) :
    (r.set column value).get? d = if d = column then some value else r.get? d :=
  lookup_setPair column value d r.pairs

/-- Rows that give every column the same value are equal. -/
theorem ext_get? {r s : Row} (h : ∀ c, r.get? c = s.get? c) : r = s := by
  cases r with | mk p hp => cases s with | mk q hq =>
  obtain rfl : p = q := Ascending.ext hp hq h
  rfl

/-- Writes to different columns commute. -/
theorem set_comm (r : Row) {c d : String} (h : c ≠ d) (x y : String) :
    (r.set c x).set d y = (r.set d y).set c x :=
  ext_get? fun e => by
    simp only [get?_set]
    by_cases hc : e = c <;> by_cases hd : e = d <;> simp_all

/-- The row of a list of pairs. A repeated column keeps its last value. -/
def ofPairs (pairs : List (String × String)) : Row :=
  pairs.foldl (fun r (column, value) => r.set column value) empty

end Row

end TableEngine
