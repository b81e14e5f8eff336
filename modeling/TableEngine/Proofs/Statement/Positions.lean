import TableEngine.Proofs.Statement.Operands

/-!
# A filter by the positions of its words

The reader scans a clause from left to right and skips the literal of every operator it acts on.
Here the filter is described without a scan. `Filter.termAt?` says what a position writes : a
literal nothing, a connective itself, and an operator that acts (`Filter.acts`) the comparison of
the words around it. `Filter.ofWords_eq_terms` : a clause that begins with an operator is malformed, and
any other writes the terms of its positions, in order.

So whether a word is read as a connective, an operator or an operand depends on the position alone.
The word after an operator that acts is its literal, be it `AND`, `OR` or another operator.
-/

namespace TableEngine

theorem filterMap_range_succ {α : Type} (f : Nat → Option α) (n : Nat) :
    (List.range (n + 1)).filterMap f =
      (f 0).toList ++ (List.range n).filterMap fun p => f (p + 1) := by
  have hshift : (f ∘ Nat.succ) = fun p => f (p + 1) := rfl
  rw [List.range_succ_eq_map, List.filterMap_cons, List.filterMap_map, hshift]
  cases f 0 <;> rfl

namespace Filter

/-! ## What a position writes -/

/-- The term of a word between two others. -/
def termOf? (before word after : Option String) : Option Term :=
  match word.bind Connective.ofWord?, word.bind Comparison.ofSymbol? with
  | some join, _ => some (.join join)
  | none, some op => before.map fun column => .test ⟨column, op, after⟩
  | none, none => none

/-- The word at the position is taken by an operator that acts right before it. -/
def isLiteral (ws : List String) : Nat → Bool
  | 0 => false
  | p + 1 => acts ws p

/-- The term of the position, if `previous` is the word before the first. -/
def termAt? (previous : Option String) (ws : List String) (p : Nat) : Option Term :=
  if isLiteral ws p then none else termOf? (wordBefore previous ws p) ws[p]? ws[p + 1]?

/-- The terms of the positions, one after another. -/
def terms (previous : Option String) (ws : List String) : Filter :=
  (List.range ws.length).filterMap (termAt? previous ws)

section Terms

variable {previous before after : Option String} {v literal : String} {ws : List String}
  {join : Connective} {op : Comparison}

theorem termOf?_connective (hj : Connective.ofWord? v = some join) :
    termOf? before (some v) after = some (.join join) := by
  simp [termOf?, hj]

theorem termOf?_other (hj : Connective.ofWord? v = none) (ho : Comparison.ofSymbol? v = none) :
    termOf? before (some v) after = none := by
  simp [termOf?, hj, ho]

theorem termOf?_operator (ho : Comparison.ofSymbol? v = some op) :
    termOf? before (some v) after = before.map fun column => .test ⟨column, op, after⟩ := by
  obtain ⟨-, hj⟩ := Comparison.ofSymbol?_of_mem (Comparison.mem_spellings_of_ofSymbol? ho)
  simp [termOf?, hj, ho]

theorem termAt?_zero : termAt? previous ws 0 = termOf? previous ws[0]? ws[1]? :=
  if_neg Bool.false_ne_true

/-- An operator that acts stands behind a column, and compares it. -/
theorem termAt?_of_acts {p : Nat} (previous : Option String) (h : acts ws (p + 1) = true) :
    ∃ column op, ws[p]? = some column ∧ ws[p + 1]?.bind Comparison.ofSymbol? = some op ∧
      termAt? previous ws (p + 1) = some (.test ⟨column, op, ws[p + 2]?⟩) := by
  rw [acts, Bool.and_eq_true, Bool.not_eq_true'] at h
  obtain ⟨hoperator, hbefore⟩ := h
  obtain ⟨op, hop⟩ := Option.isSome_iff_exists.mp hoperator
  obtain ⟨v, hv, ho⟩ := Option.bind_eq_some_iff.mp hop
  obtain ⟨hlength, -⟩ := List.getElem?_eq_some_iff.mp hv
  have hcolumn : ws[p]? = some ws[p] := List.getElem?_eq_getElem (by omega)
  refine ⟨ws[p], op, hcolumn, hop, ?_⟩
  rw [termAt?, isLiteral, hbefore, if_neg Bool.false_ne_true, hv, termOf?_operator ho, wordBefore,
    hcolumn, Option.map_some]

/-- A literal writes nothing, whatever word it is. -/
theorem termAt?_succ_of_acts {p : Nat} (h : acts ws p = true) :
    termAt? previous ws (p + 1) = none :=
  if_pos h

/-! ## The words in front -/

theorem isLiteral_cons (ho : Comparison.ofSymbol? v = none) :
    ∀ p, isLiteral (v :: ws) (p + 1) = isLiteral ws p
  | 0 => by simp [isLiteral, acts, isOperator, ho]
  | p + 1 => acts_cons_succ ho p

theorem isLiteral_cons_cons (ho : Comparison.ofSymbol? v = some op) :
    ∀ p, isLiteral (v :: literal :: ws) (p + 2) = isLiteral ws p
  | 0 => acts_cons_one ho
  | p + 1 => acts_cons_cons ho p

/-- A word that is no operator moves the terms after it by one position. -/
theorem terms_cons (ho : Comparison.ofSymbol? v = none) : terms previous (v :: ws) =
    (termOf? previous (some v) ws[0]?).toList ++ terms (some v) ws := by
  have hmoved : ∀ p, termAt? previous (v :: ws) (p + 1) = termAt? (some v) ws p := fun p => by
    rw [termAt?, termAt?, isLiteral_cons ho, wordBefore_cons previous]
    rfl
  rw [terms, List.length_cons, filterMap_range_succ, funext hmoved, termAt?_zero]
  rfl

/-- An operator moves the terms after its literal by two. -/
theorem terms_cons_cons (ho : Comparison.ofSymbol? v = some op) :
    terms previous (v :: literal :: ws) =
      (termOf? previous (some v) (some literal)).toList ++ terms (some literal) ws := by
  have hmoved : ∀ p, termAt? previous (v :: literal :: ws) (p + 1 + 1) =
      termAt? (some literal) ws p := fun p => by
    rw [termAt?, termAt?, isLiteral_cons_cons ho, wordBefore_cons none]
    rfl
  rw [terms, List.length_cons, List.length_cons, filterMap_range_succ, filterMap_range_succ,
    funext hmoved, termAt?_succ_of_acts (acts_cons_zero ho), termAt?_zero]
  rfl

end Terms

/-! ## The scan -/

/-- The scan writes the terms of the positions, unless it begins with an operator. -/
theorem scan_eq_terms (kind : StatementKind) : ∀ (previous : Option String) (ws : List String),
    (previous = none → isOperator ws[0]? = false) →
      scan kind previous ws = .ok (terms previous ws)
  | _, [], _ => rfl
  | previous, v :: ws, h => by
    cases ho : Comparison.ofSymbol? v with
    | none =>
      have ih := scan_eq_terms kind (some v) ws nofun
      rw [terms_cons ho]
      cases hj : Connective.ofWord? v with
      | none =>
        rw [scan_other hj ho, ih, termOf?_other hj ho]
        rfl
      | some join =>
        rw [scan_connective hj, ih, termOf?_connective hj]
        rfl
    | some op =>
      obtain _ | column := previous
      · have hfirst := h rfl
        simp [isOperator, ho] at hfirst
      obtain _ | ⟨literal, ws⟩ := ws
      · rw [scan_operator_last ho, terms, List.length_singleton, filterMap_range_succ, termAt?_zero,
          List.getElem?_cons_zero, termOf?_operator ho]
        rfl
      · have ih := scan_eq_terms kind (some literal) ws nofun
        rw [scan_operator ho, ih, terms_cons_cons ho, termOf?_operator ho]
        rfl

/-- A clause is malformed if its first word is an operator, and that operator is blamed. Any other
clause writes the terms of its positions, in order : a connective wherever one stands, and for
every operator that acts the comparison of the word before it and the word after it, which is left
out at the end. An operator that acts and the word after it write that one comparison, even if that
word is a connective or an operator itself. -/
theorem ofWords_eq_terms (kind : StatementKind) (ws : List String) :
    (ofWords kind ws =
      match ws[0]?.bind Comparison.ofSymbol? with
      | some op => .error (.malformed kind (.noColumnFor op))
      | none => .ok ((List.range ws.length).filterMap (termAt? none ws))) ∧
    ∀ p, acts ws (p + 1) = true → ∃ column op, ws[p]? = some column ∧
      ws[p + 1]?.bind Comparison.ofSymbol? = some op ∧
      [p + 1, p + 2].filterMap (termAt? none ws) = [.test ⟨column, op, ws[p + 2]?⟩] := by
  constructor
  · cases hfirst : ws[0]?.bind Comparison.ofSymbol? with
    | none => exact scan_eq_terms kind none ws fun _ => by rw [isOperator, hfirst, Option.isSome_none]
    | some op =>
      obtain ⟨v, hv, ho⟩ := Option.bind_eq_some_iff.mp hfirst
      obtain ⟨rest, rfl⟩ := List.head?_eq_some_iff.mp (List.head?_eq_getElem? .. ▸ hv)
      exact scan_operator_none ho
  · intro p h
    obtain ⟨column, op, hcolumn, hop, hterm⟩ := termAt?_of_acts none h
    refine ⟨column, op, hcolumn, hop, ?_⟩
    rw [List.filterMap_cons_some hterm, List.filterMap_cons_none (termAt?_succ_of_acts h),
      List.filterMap_nil]

/-- A literal can be the column of the next comparison, and may read as a connective. -/
theorem ofWords_eq_terms_chained :
    let ws := ["a", "=", "OR", "=", "<", "and", "or"]
    acts ws 3 = true ∧ [3, 4].filterMap (termAt? none ws) = [.test ⟨"OR", .equal, some "<"⟩] ∧
      ofWords .select ws = .ok [.test ⟨"a", .equal, some "OR"⟩, .test ⟨"OR", .equal, some "<"⟩,
        .join .and, .join .or] := by
  intro ws
  obtain ⟨hwords, hacting⟩ := ofWords_eq_terms .select ws
  have hacts : acts ws 3 = true := by decide
  obtain ⟨column, op, hcolumn, hop, hpair⟩ := hacting 2 hacts
  cases hcolumn
  cases hop
  exact ⟨hacts, hpair, hwords⟩

end Filter

end TableEngine
