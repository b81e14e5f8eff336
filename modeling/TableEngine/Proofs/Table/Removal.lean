import TableEngine.Proofs.Table.Selection

/-!
# Removing the rows that a filter accepts

A removal collects the keys of the rows that the filter accepts and removes them one by one,
while the store shrinks. What is left are the keys of the other rows (`Table.perm_keys_delete`),
each with its row as it was (`Table.get?_delete`). Since every key of a sound store is listed
once, the number of the removed rows is the number of the rows accepted before
(`Table.count_delete`), and a second removal finds none (`Table.delete_delete`).
-/

namespace TableEngine.Table

variable {t : Table} (h : t.rows.Sound) (f : Filter)
include h

/-- The keys that are left are those whose row is not accepted. -/
theorem perm_keys_delete :
    (t.delete f).2.keys.Perm (t.keys.filter fun key => !t.matchesAt f key) := by
  have hleft : (t.delete f).2.keys.Nodup := (sound_delete h f).nodup_keys
  have hright : (t.keys.filter fun key => !t.matchesAt f key).Nodup := h.nodup_keys.filter _
  refine (List.perm_ext_iff_of_nodup hleft hright).mpr fun key => ?_
  have hkey : key ∈ t.keys ↔ (t.get? key).isSome := h.mem_keys_iff key
  have hkey' : key ∈ (t.delete f).2.keys ↔ ((t.delete f).2.get? key).isSome :=
    (sound_delete h f).mem_keys_iff key
  rw [hkey', List.mem_filter, hkey, get?_delete h, matchesAt]
  cases t.get? key with
  | none => simp
  | some row => cases f.accepts row <;> simp

/-- Every row that is accepted is counted, and no other. -/
theorem count_delete : (t.delete f).1 = t.keys.countP (t.matchesAt f) := by
  have hcount : (t.delete f).1 + (t.delete f).2.size = t.size := count_removeEach _ h
  have hsize : t.keys.length = t.size := h.length_keys
  have hsize' : (t.delete f).2.keys.length = (t.delete f).2.size := (sound_delete h f).length_keys
  have hleft := (perm_keys_delete h f).length_eq
  have hsplit : t.keys.length =
      t.keys.countP (t.matchesAt f) + t.keys.countP fun key => !t.matchesAt f key := by
    simpa using List.length_eq_countP_add_countP (t.matchesAt f)
  rw [← List.countP_eq_length_filter] at hleft
  omega

/-- Once the accepted rows are gone, the same removal finds none. -/
theorem delete_delete : (t.delete f).2.delete f = (0, (t.delete f).2) := by
  have hnone : (t.delete f).2.matchingKeys f = [] := by
    refine List.eq_nil_iff_forall_not_mem.mpr fun key hkey => ?_
    obtain ⟨row, hrow, haccepts⟩ := (mem_matchingKeys_iff (sound_delete h f)).mp hkey
    rw [get?_delete h, Option.filter_eq_some_iff, haccepts] at hrow
    cases hrow.2
  rw [delete, hnone]
  rfl

omit h

/-- In every table that changes lead to, a removal answers the number of rows that the filter
accepts, which is also the number of rows that a selection lists. The keys of the other rows
are left, each with its row as it was, the size has dropped by the answer, and
the same removal once more answers zero and changes nothing. -/
theorem delete_after (name : String) (columns : List String) (σ : Strategy)
    (changes : List Change) (f : Filter) :
    let t := (empty name columns σ).after changes
    let count := (t.delete f).1
    let t' := (t.delete f).2
    count = t.keys.countP (t.matchesAt f) ∧ count = (t.select f).size ∧
    t'.keys.Perm (t.keys.filter fun key => !t.matchesAt f key) ∧
    (∀ key, t'.get? key = (t.get? key).filter fun row => !f.accepts row) ∧
    t'.size + count = t.size ∧ t'.delete f = (0, t') := by
  intro t count t'
  have h : t.rows.Sound := sound_after changes (Store.sound_empty σ)
  have hcount : count = t.keys.countP (t.matchesAt f) := count_delete h f
  have hsize : count + t'.size = t.size := count_removeEach _ h
  exact ⟨hcount, hcount.trans (size_select t f).symm, perm_keys_delete h f, get?_delete h f,
    (Nat.add_comm _ _).trans hsize, delete_delete h f⟩

end TableEngine.Table
