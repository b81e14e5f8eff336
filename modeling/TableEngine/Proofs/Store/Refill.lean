import TableEngine.Proofs.Store.View

/-!
# A list of the entries, and what refilling an empty view with it shows

`View.Lists` : a list names every stored entry once. A rebuild takes such a list and
writes its entries, one after another, into an empty array of another capacity. On
the view this changes the capacity alone (`View.Lists.refill_blank`).
-/

set_option linter.unusedSectionVars false

namespace TableEngine.View

variable {K V : Type}

/-- Nothing stored, at any capacity. -/
def blank (capacity : Nat) : View K V := ⟨fun _ => none, 0, capacity⟩

/-- The list names every stored entry once. -/
structure Lists (v : View K V) (es : List (Entry K V)) : Prop where
  nodup : (es.map Entry.key).Nodup
  mem_iff : ∀ {k : K} {x : V}, ⟨k, x⟩ ∈ es ↔ v.get? k = some x
  size_eq : v.size = es.length

variable {v : View K V} {es : List (Entry K V)} {k : K}

theorem Lists.mem_keys_iff (h : v.Lists es) : k ∈ es.map Entry.key ↔ (v.get? k).isSome := by
  rw [List.mem_map, Option.isSome_iff_exists]
  constructor
  · rintro ⟨e, he, rfl⟩
    exact ⟨e.value, h.mem_iff.mp he⟩
  · rintro ⟨x, hx⟩
    exact ⟨⟨k, x⟩, h.mem_iff.mpr hx, rfl⟩

variable [DecidableEq K]

/-- Write the entries one after another. -/
def refill (v : View K V) (es : List (Entry K V)) : View K V :=
  es.foldl (fun v e => v.write e.key e.value) v

theorem refill_cons (e : Entry K V) :
    v.refill (e :: es) = (v.write e.key e.value).refill es := rfl

theorem capacity_refill : ∀ (es : List (Entry K V)) {v : View K V},
    (v.refill es).capacity = v.capacity
  | [], _ => rfl
  | _ :: es, _ => capacity_refill es

/-- Distinct keys, none of which is stored. -/
structure Fresh (v : View K V) (es : List (Entry K V)) : Prop where
  nodup : (es.map Entry.key).Nodup
  absent : ∀ e ∈ es, v.get? e.key = none

namespace Fresh

variable {e : Entry K V}

theorem head (h : v.Fresh (e :: es)) : v.get? e.key = none := h.absent e (by simp)

theorem size_write (h : v.Fresh (e :: es)) : (v.write e.key e.value).size = v.size + 1 := by
  simp [write, h.head]

theorem tail (h : v.Fresh (e :: es)) : (v.write e.key e.value).Fresh es where
  nodup := (List.nodup_cons.mp h.nodup).2
  absent e' he' := by
    have hne : e'.key ≠ e.key := fun hk =>
      (List.nodup_cons.mp h.nodup).1 (hk ▸ List.mem_map_of_mem he')
    exact (if_neg hne).trans (h.absent e' (by simp [he']))

theorem size_refill : ∀ {es : List (Entry K V)} {v : View K V}, v.Fresh es →
    (v.refill es).size = v.size + es.length
  | [], _, _ => rfl
  | e :: es, v, h => by
    rw [refill_cons, size_refill h.tail, h.size_write, List.length_cons]
    omega

/-- The refilled view holds the written entries beside those it held before. -/
theorem get?_refill {k : K} {x : V} : ∀ {es : List (Entry K V)} {v : View K V}, v.Fresh es →
    ((v.refill es).get? k = some x ↔ ⟨k, x⟩ ∈ es ∨ v.get? k = some x)
  | [], _, _ => by simp [refill]
  | e :: es, v, h => by
    have hget : (v.write e.key e.value).get? k = if k = e.key then some e.value else v.get? k := rfl
    rw [refill_cons, get?_refill h.tail, hget, List.mem_cons]
    split
    · next hk =>
      obtain ⟨key, value⟩ := e
      subst hk
      rw [h.head]
      simp [or_comm, eq_comm]
    · next hk =>
      have : (⟨k, x⟩ : Entry K V) ≠ e := fun he => hk (he ▸ rfl)
      simp [this]

end Fresh

namespace Lists

theorem fresh_blank (h : v.Lists es) (capacity : Nat) : (blank capacity : View K V).Fresh es :=
  ⟨h.nodup, fun _ _ => rfl⟩

/-- An empty view, once refilled, shows what the listed one shows. -/
theorem refill_blank (h : v.Lists es) (capacity : Nat) :
    (blank capacity).refill es = { v with capacity := capacity } := by
  have hfresh := h.fresh_blank capacity
  refine View.ext (funext fun k => Option.ext fun x => ?_) ?_ (capacity_refill es)
  · rw [hfresh.get?_refill, h.mem_iff]
    simp [blank]
  · rw [hfresh.size_refill, h.size_eq]
    exact Nat.zero_add _

end Lists

end TableEngine.View
