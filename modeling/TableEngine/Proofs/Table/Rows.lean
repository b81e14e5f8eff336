import TableEngine.Proofs.Table.Agreement

/-!
# The row under each key

What the operations of a table do, said key by key (`Table.get?_insert`, `Table.get?_update`,
`Table.get?_delete`), and which rows a selection lists (`Table.mem_rows_select`). The filter
decides about each row on its own, and the order in which a scan meets the keys, or a store
that shrinks on the way, does not show. All of it is read off the view of a sound store.

A row made of columns and values has the last value of every column (`Row.get?_ofPairs`).
-/

namespace TableEngine

/-! ## The row of a list of pairs -/

namespace Row

theorem ofPairs_concat (pairs : List (String × String)) (column value : String) :
    ofPairs (pairs ++ [(column, value)]) = (ofPairs pairs).set column value := by
  rw [ofPairs, List.foldl_append]
  rfl

/-- The last pair of a column counts. -/
theorem get?_ofPairs (pairs : List (String × String)) (c : String) :
    (ofPairs pairs).get? c = pairs.reverse.lookup c := by
  induction pairs using List.reverseRecOn with
  | nil => rfl
  | append_singleton pairs pair ih =>
    obtain ⟨column, value⟩ := pair
    rw [ofPairs_concat, get?_set, ih, List.reverse_append, List.reverse_singleton,
      List.singleton_append, lookup_pair]

variable {columns values : List String} {c value : String}

/-- A value stands where its column stands. -/
theorem exists_index_of_get? (h : (ofPairs (columns.zip values)).get? c = some value) :
    ∃ i : Nat, columns[i]? = some c ∧ values[i]? = some value := by
  rw [get?_ofPairs] at h
  obtain ⟨before, after, hpairs, -⟩ := List.lookup_eq_some_iff.mp h
  have hmem : (c, value) ∈ columns.zip values := by
    rw [← List.mem_reverse, hpairs]
    exact List.mem_append_right before List.mem_cons_self
  obtain ⟨i, hi⟩ := List.mem_iff_getElem?.mp hmem
  exact ⟨i, List.getElem?_zip_eq_some.mp hi⟩

/-- With a value for each column, the row has every column. -/
theorem contains_ofPairs_zip (hlen : values.length = columns.length) (hc : c ∈ columns) :
    (ofPairs (columns.zip values)).contains c = true := by
  obtain ⟨i, hi⟩ := List.mem_iff_getElem?.mp hc
  have hlt : i < values.length := hlen ▸ (List.getElem?_eq_some_iff.mp hi).1
  have hmem : (c, values[i]) ∈ columns.zip values :=
    List.mem_iff_getElem?.mpr ⟨i, List.getElem?_zip_eq_some.mpr ⟨hi, List.getElem?_eq_getElem hlt⟩⟩
  rw [contains, get?_ofPairs, List.lookup_isSome_iff]
  exact ⟨_, List.mem_reverse.mpr hmem, beq_self_eq_true c⟩

end Row

/-! ## Many keys of a view -/

namespace View

variable {K V : Type} [DecidableEq K] (v : View K V)

theorem get?_modify (f : V → V) (key k : K) :
    (v.modify key f).get? k = if k = key then (v.get? k).map f else v.get? k := by
  show (if k = key then (v.get? key).map f else v.get? k) = _
  split
  · next h => rw [h]
  · rfl

/-- A key that is listed once is changed once. -/
theorem get?_modifyAll (f : V → V) (k : K) : ∀ {keys : List K} (v : View K V), keys.Nodup →
    (v.modifyAll f keys).get? k = if k ∈ keys then (v.get? k).map f else v.get? k
  | [], _, _ => by simp [modifyAll]
  | key :: keys, v, h => by
    obtain ⟨hkey, hkeys⟩ := List.nodup_cons.mp h
    rw [modifyAll, List.foldl_cons, ← modifyAll, get?_modifyAll f k _ hkeys, get?_modify]
    rcases eq_or_ne k key with rfl | hne
    · simp [hkey]
    · simp [hne]

theorem get?_removeAll (k : K) : ∀ (keys : List K) (v : View K V),
    (v.removeAll keys).get? k = if k ∈ keys then none else v.get? k
  | [], _ => by simp [removeAll]
  | key :: keys, v => by
    rw [removeAll, List.foldl_cons, ← removeAll, get?_removeAll k keys, get?_remove]
    rcases eq_or_ne k key with rfl | hne
    · simp
    · simp [hne]

end View

/-! ## One operation of a table -/

namespace Table

variable {t t' : Table} {key : String} {row : Row}

/-- A row is stored if it has every declared column. -/
theorem insert_eq_ok_iff : t.insert key row = .ok t' ↔
    (∀ column ∈ t.columns, row.contains column = true) ∧
      t' = { t with rows := t.rows.insert key row } := by
  have hmissing : t.missing row = [] ↔ ∀ column ∈ t.columns, row.contains column = true := by
    simp [missing]
  rw [← hmissing]
  rcases insert_cases t key row with ⟨hnil, hinsert⟩ | ⟨hne, hinsert⟩
  · simp [hinsert, hnil, eq_comm]
  · simp [hinsert, hne]

/-- A row with a value for each declared column is stored. -/
theorem exists_insert (t : Table) (key : String) {values : List String}
    (hlen : values.length = t.columns.length) :
    ∃ t', t.insert key (.ofPairs (t.columns.zip values)) = .ok t' :=
  ⟨_, insert_eq_ok_iff.mpr ⟨fun _ hc => Row.contains_ofPairs_zip hlen hc, rfl⟩⟩

theorem get?_empty (name : String) (columns : List String) (σ : Strategy) (key : String) :
    (empty name columns σ).get? key = none :=
  congrFun (congrArg View.get? (Store.view_empty σ)) key

variable (h : t.rows.Sound)
include h

theorem get?_insert (ht : t.insert key row = .ok t') (k : String) :
    t'.get? k = if k = key then some row else t.get? k := by
  obtain ⟨-, rfl⟩ := insert_eq_ok_iff.mp ht
  exact congrFun (congrArg View.get? (h.insert key row).2) k

theorem sound_insert (ht : t.insert key row = .ok t') : t'.rows.Sound := by
  obtain ⟨-, rfl⟩ := insert_eq_ok_iff.mp ht
  exact (h.insert key row).1

/-- There is one row more if there was none under the key. -/
theorem size_insert (ht : t.insert key row = .ok t') :
    t'.size = if (t.get? key).isSome then t.size else t.size + 1 := by
  obtain ⟨-, rfl⟩ := insert_eq_ok_iff.mp ht
  exact congrArg View.size (h.insert key row).2

theorem sound_update (column value : String) (f : Filter) :
    (t.update column value f).2.rows.Sound :=
  (setEach_shows column value (t.matchingKeys f) h).sound

theorem sound_delete (f : Filter) : (t.delete f).2.rows.Sound :=
  (removeEach_shows (t.matchingKeys f) h).sound

theorem mem_matchingKeys_iff {f : Filter} {k : String} :
    k ∈ t.matchingKeys f ↔ ∃ row, t.get? k = some row ∧ f.accepts row = true := by
  rw [matchingKeys, List.mem_filter]
  have hkeys : k ∈ t.keys ↔ (t.get? k).isSome := h.mem_keys_iff k
  rw [hkeys]
  cases t.get? k <;> simp

theorem nodup_matchingKeys (f : Filter) : (t.matchingKeys f).Nodup := h.nodup_keys.filter _

/-- An update sets the column in the rows that the filter accepts. -/
theorem get?_update (column value : String) (f : Filter) (k : String) :
    (t.update column value f).2.get? k =
      (t.get? k).map fun row => if f.accepts row then row.set column value else row := by
  have hview := (setEach_shows column value (t.matchingKeys f) h).view_eq
  have hget : (t.update column value f).2.get? k = _ := congrFun (congrArg View.get? hview) k
  rw [hget, View.get?_modifyAll _ _ _ (nodup_matchingKeys h f)]
  show (if k ∈ t.matchingKeys f then (t.get? k).map _ else t.get? k) = _
  simp only [mem_matchingKeys_iff h]
  cases t.get? k with
  | none => simp
  | some row => by_cases hrow : f.accepts row <;> simp [hrow]

/-- A removal leaves the rows that the filter does not accept. -/
theorem get?_delete (f : Filter) (k : String) :
    (t.delete f).2.get? k = (t.get? k).filter fun row => !f.accepts row := by
  have hview := (removeEach_shows (t.matchingKeys f) h).view_eq
  have hget : (t.delete f).2.get? k = _ := congrFun (congrArg View.get? hview) k
  rw [hget, View.get?_removeAll]
  show (if k ∈ t.matchingKeys f then none else t.get? k) = _
  simp only [mem_matchingKeys_iff h]
  cases t.get? k with
  | none => simp
  | some row => by_cases hrow : f.accepts row <;> simp [Option.filter, hrow]

/-- A selection lists the rows that the filter accepts. -/
theorem mem_rows_select {f : Filter} {values : List (Option String)} :
    values ∈ (t.select f).rows ↔
      ∃ k row, t.get? k = some row ∧ f.accepts row = true ∧ t.project row = values := by
  have hkeys : ∀ k, k ∈ t.keys ↔ (t.get? k).isSome := h.mem_keys_iff
  simp only [select, List.mem_map, List.mem_filter, List.mem_filterMap, hkeys]
  constructor
  · rintro ⟨row, ⟨⟨k, -, hk⟩, hrow⟩, rfl⟩
    exact ⟨k, row, hk, hrow, rfl⟩
  · rintro ⟨k, row, hk, hrow, rfl⟩
    exact ⟨row, ⟨⟨k, by simp [hk], hk⟩, hrow⟩, rfl⟩

end Table

end TableEngine
