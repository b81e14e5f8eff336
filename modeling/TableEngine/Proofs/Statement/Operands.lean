import TableEngine.Proofs.Statement.Reading

/-!
# Which words of a filter count

An operator acts if no operator that acts stands right before it (`Filter.acts`); otherwise it
is the literal of that one. Each operator that acts makes a comparison of the words around it
(`Filter.exists_test_of_acts`), so a word next to one is a column or a literal.

No other word is an operand. One that is not a connective either is passed over, and the filter
is the one that is written without it (`Filter.scan_eraseIdx`). A clause that writes a
comparison without blanks around its operator, such as `id=4`, therefore accepts every row.
-/

namespace TableEngine

theorem exists_of_map_eq_ok {ε α β : Type} {x : Except ε α} {g : α → β} {b : β}
    (h : x.map g = .ok b) : ∃ a, x = .ok a ∧ g a = b := by
  cases x with
  | error e => cases h
  | ok a => exact ⟨a, rfl, Except.ok.inj h⟩

namespace Filter

/-! ## The operators that act -/

/-- There is a word, and it is an operator. -/
def isOperator (w : Option String) : Bool := (w.bind Comparison.ofSymbol?).isSome

/-- The word at the position is an operator, and not the literal of an operator before it. -/
def acts (ws : List String) : Nat → Bool
  | 0 => isOperator ws[0]?
  | p + 1 => isOperator ws[p + 1]? && !acts ws p

/-- An operator that acts stands right before the position or right after it. -/
def besideActing (ws : List String) : Nat → Bool
  | 0 => acts ws 1
  | p + 1 => acts ws (p + 2) || acts ws p

/-- The word before the position, if `previous` is the one before the first. -/
def wordBefore (previous : Option String) (ws : List String) : Nat → Option String
  | 0 => previous
  | p + 1 => ws[p]?

section Positions

variable {v literal : String} {ws : List String} {op : Comparison}

theorem acts_cons_zero (ho : Comparison.ofSymbol? v = some op) : acts (v :: ws) 0 = true := by
  simp [acts, isOperator, ho]

theorem acts_cons_succ (ho : Comparison.ofSymbol? v = none) :
    ∀ p, acts (v :: ws) (p + 1) = acts ws p
  | 0 => by simp [acts, isOperator, ho]
  | p + 1 => by rw [acts, acts_cons_succ ho p, acts, List.getElem?_cons_succ]

/-- The literal of an operator does not act. -/
theorem acts_cons_one (ho : Comparison.ofSymbol? v = some op) : acts (v :: ws) 1 = false := by
  rw [acts, acts_cons_zero ho, Bool.not_true, Bool.and_false]

theorem acts_cons_cons (ho : Comparison.ofSymbol? v = some op) :
    ∀ p, acts (v :: literal :: ws) (p + 2) = acts ws p
  | 0 => by
    show (isOperator ws[0]? && !acts (v :: literal :: ws) 1) = isOperator ws[0]?
    rw [acts_cons_one ho, Bool.not_false, Bool.and_true]
  | p + 1 => by
    show (isOperator ws[p + 1]? && !acts (v :: literal :: ws) (p + 2)) = acts ws (p + 1)
    rw [acts_cons_cons ho p, acts]

theorem besideActing_cons (ho : Comparison.ofSymbol? v = none) :
    ∀ p, besideActing (v :: ws) (p + 1) = besideActing ws p
  | 0 => by simp [besideActing, acts, isOperator, ho]
  | p + 1 => by simp only [besideActing, acts_cons_succ ho]

theorem besideActing_cons_cons (ho : Comparison.ofSymbol? v = some op) :
    ∀ p, besideActing (v :: literal :: ws) (p + 2) = besideActing ws p
  | 0 => by simp only [besideActing, acts_cons_cons ho, acts_cons_one ho, Bool.or_false]
  | p + 1 => by simp only [besideActing, acts_cons_cons ho]

theorem wordBefore_cons (previous : Option String) :
    ∀ p, wordBefore (some v) ws p = wordBefore previous (v :: ws) (p + 1)
  | 0 => rfl
  | _ + 1 => rfl

end Positions

/-! ## One step of the scan -/

section Scan

variable {kind : StatementKind} {previous : Option String} {v literal column : String}
  {ws : List String} {join : Connective} {op : Comparison}

theorem scan_connective (hj : Connective.ofWord? v = some join) :
    scan kind previous (v :: ws) = (scan kind (some v) ws).map (.join join :: ·) := by
  rw [scan, hj]

theorem scan_other (hj : Connective.ofWord? v = none) (ho : Comparison.ofSymbol? v = none) :
    scan kind previous (v :: ws) = scan kind (some v) ws := by
  rw [scan, hj, ho]

variable (ho : Comparison.ofSymbol? v = some op)
include ho

theorem scan_operator_none :
    scan kind none (v :: ws) = .error (.malformed kind (.noColumnFor op)) := by
  obtain ⟨-, hj⟩ := Comparison.ofSymbol?_of_mem (Comparison.mem_spellings_of_ofSymbol? ho)
  rw [scan, hj, ho]

theorem scan_operator_last : scan kind (some column) [v] = .ok [.test ⟨column, op, none⟩] := by
  obtain ⟨-, hj⟩ := Comparison.ofSymbol?_of_mem (Comparison.mem_spellings_of_ofSymbol? ho)
  rw [scan, hj, ho]

theorem scan_operator : scan kind (some column) (v :: literal :: ws) =
    (scan kind (some literal) ws).map (.test ⟨column, op, some literal⟩ :: ·) := by
  obtain ⟨-, hj⟩ := Comparison.ofSymbol?_of_mem (Comparison.mem_spellings_of_ofSymbol? ho)
  rw [scan, hj, ho]

end Scan

/-! ## What the scan makes of a clause -/

/-- An operator that acts makes a comparison of the word before it and the word after it. -/
theorem exists_test_of_acts {kind : StatementKind} : ∀ (ws : List String) (p : Nat)
    {previous : Option String} {f : Filter}, scan kind previous ws = .ok f → acts ws p = true →
    ∃ column op, wordBefore previous ws p = some column ∧ .test ⟨column, op, ws[p + 1]?⟩ ∈ f
  | [], 0, _, _, _, hp | [], _ + 1, _, _, _, hp => by simp [acts, isOperator] at hp
  | v :: ws, p, previous, f, h, hp => by
    cases ho : Comparison.ofSymbol? v with
    | none =>
      obtain _ | p := p
      · simp [acts, isOperator, ho] at hp
      rw [acts_cons_succ ho] at hp
      rw [← wordBefore_cons, List.getElem?_cons_succ]
      cases hj : Connective.ofWord? v with
      | none =>
        rw [scan_other hj ho] at h
        exact exists_test_of_acts ws p h hp
      | some join =>
        rw [scan_connective hj] at h
        obtain ⟨g, hg, rfl⟩ := exists_of_map_eq_ok h
        obtain ⟨column, op, hcolumn, hmem⟩ := exists_test_of_acts ws p hg hp
        exact ⟨column, op, hcolumn, List.mem_cons_of_mem _ hmem⟩
    | some op =>
      obtain _ | column := previous
      · rw [scan_operator_none ho] at h
        cases h
      obtain _ | ⟨literal, ws⟩ := ws
      · rw [scan_operator_last ho] at h
        cases h
        obtain _ | p := p
        · exact ⟨column, op, rfl, List.mem_singleton_self _⟩
        · simp [acts, isOperator] at hp
      · rw [scan_operator ho] at h
        obtain ⟨g, hg, rfl⟩ := exists_of_map_eq_ok h
        obtain _ | _ | p := p
        · exact ⟨column, op, rfl, List.mem_cons_self⟩
        · rw [acts_cons_one ho] at hp
          cases hp
        · rw [acts_cons_cons ho] at hp
          obtain ⟨column, op, hcolumn, hmem⟩ := exists_test_of_acts ws p hg hp
          rw [wordBefore_cons none] at hcolumn
          exact ⟨column, op, hcolumn, List.mem_cons_of_mem _ hmem⟩

variable {kind : StatementKind} {ws : List String} {w : String}

/-- The word before a clause counts only if the clause begins with an operator. -/
theorem scan_congr (h : isOperator ws[0]? = false) (previous previous' : Option String) :
    scan kind previous ws = scan kind previous' ws := by
  obtain _ | ⟨v, ws⟩ := ws
  · rfl
  have ho : Comparison.ofSymbol? v = none := by simpa [isOperator] using h
  cases hj : Connective.ofWord? v with
  | none => rw [scan_other hj ho, scan_other hj ho]
  | some join => rw [scan_connective hj, scan_connective hj]

/-- A word that is neither a connective nor an operator, and not next to an operator that
acts, might as well not be there. -/
theorem scan_eraseIdx (hj : Connective.ofWord? w = none) (ho : Comparison.ofSymbol? w = none) :
    ∀ (ws : List String) (i : Nat) {previous : Option String}, ws[i]? = some w →
      besideActing ws i = false → scan kind previous (ws.eraseIdx i) = scan kind previous ws
  | [], _, _, hw, _ => by simp at hw
  | v :: ws, 0, previous, hw, hb => by
    obtain rfl : v = w := by simpa using hw
    rw [besideActing, acts_cons_succ ho] at hb
    rw [scan_other hj ho]
    exact scan_congr hb _ _
  | v :: ws, i + 1, previous, hw, hb => by
    rw [List.getElem?_cons_succ] at hw
    rw [List.eraseIdx_cons_succ]
    cases hov : Comparison.ofSymbol? v with
    | none =>
      rw [besideActing_cons hov] at hb
      cases hjv : Connective.ofWord? v with
      | none => rw [scan_other hjv hov, scan_other hjv hov, scan_eraseIdx hj ho ws i hw hb]
      | some join =>
        rw [scan_connective hjv, scan_connective hjv, scan_eraseIdx hj ho ws i hw hb]
    | some op =>
      obtain _ | column := previous
      · rw [scan_operator_none hov, scan_operator_none hov]
      obtain _ | ⟨literal, ws⟩ := ws
      · simp at hw
      obtain _ | i := i
      · -- the operator in front acts, and this is its literal
        rw [besideActing, acts_cons_zero hov, Bool.or_true] at hb
        cases hb
      · rw [besideActing_cons_cons hov] at hb
        rw [List.eraseIdx_cons_succ, scan_operator hov, scan_operator hov,
          scan_eraseIdx hj ho ws i (by simpa using hw) hb]

/-- Without an operator there is no comparison. -/
theorem joined_of_scan : ∀ (ws : List String) {previous : Option String} {f : Filter},
    (∀ w ∈ ws, Comparison.ofSymbol? w = none) → scan kind previous ws = .ok f →
      ∀ latest, joined latest f = []
  | [], _, _, _, h, _ => by cases h; rfl
  | v :: ws, previous, f, hws, h, latest => by
    obtain ⟨ho, hws⟩ := List.forall_mem_cons.mp hws
    cases hj : Connective.ofWord? v with
    | none =>
      rw [scan_other hj ho] at h
      exact joined_of_scan ws hws h latest
    | some join =>
      rw [scan_connective hj] at h
      obtain ⟨g, hg, rfl⟩ := exists_of_map_eq_ok h
      exact joined_of_scan ws hws hg join

/-! ## Every word of a clause -/

/-- Of the words of a clause that is read, one next to an operator that acts is the column or
the literal of a comparison. Any other that is not a connective or an operator is dropped : the
clause without it writes the same filter. If no word is an operator, the filter accepts
every row. -/
theorem operand_or_dropped {f : Filter} (h : ofWords kind ws = .ok f) :
    (∀ i w, ws[i]? = some w → Connective.ofWord? w = none → Comparison.ofSymbol? w = none →
      if besideActing ws i then ∃ c, .test c ∈ f ∧ (c.column = w ∨ c.literal = some w)
      else ofWords kind (ws.eraseIdx i) = .ok f) ∧
    ((∀ w ∈ ws, Comparison.ofSymbol? w = none) → ∀ row, f.accepts row = true) := by
  refine ⟨fun i w hw hj ho => ?_, fun hws row => ?_⟩
  · split
    · next hb =>
      have hcolumn : acts ws (i + 1) = true → ∃ c, .test c ∈ f ∧ c.column = w := by
        intro hacts
        obtain ⟨column, op, hbefore, hmem⟩ := exists_test_of_acts ws (i + 1) h hacts
        exact ⟨_, hmem, Option.some.inj (hbefore.symm.trans hw)⟩
      obtain _ | p := i
      · obtain ⟨c, hmem, hc⟩ := hcolumn hb
        exact ⟨c, hmem, Or.inl hc⟩
      · rw [besideActing, Bool.or_eq_true] at hb
        rcases hb with hacts | hacts
        · obtain ⟨c, hmem, hc⟩ := hcolumn hacts
          exact ⟨c, hmem, Or.inl hc⟩
        · obtain ⟨column, op, -, hmem⟩ := exists_test_of_acts ws p h hacts
          exact ⟨_, hmem, Or.inr hw⟩
    · next hb =>
      rw [← h]
      exact scan_eraseIdx hj ho ws i hw (by simpa using hb)
  · rw [accepts, joined_of_scan ws hws h]

/-- Of the surplus words around a comparison nothing is left. -/
theorem operand_or_dropped_delete :
    let ws := ["all", "the", "id", "=", "4", "or", "5"]
    let f : Filter := [.test ⟨"id", .equal, some "4"⟩, .join .or]
    ofWords .delete ws = .ok f ∧ (∃ c, .test c ∈ f ∧ (c.column = "id" ∨ c.literal = some "id")) ∧
      ofWords .delete (ws.eraseIdx 6) = .ok f := by
  intro ws f
  have h : ofWords .delete ws = .ok f := by rfl
  obtain ⟨hwords, -⟩ := operand_or_dropped h
  exact ⟨h, hwords 2 "id" rfl (by decide) (by decide), hwords 6 "5" rfl (by decide) (by decide)⟩

/-- Not every word is an operand. A comparison without blanks is one word, and reads as no
comparison at all. -/
theorem exists_dropped_word : ¬∀ (kind : StatementKind) (ws : List String) (f : Filter),
    ofWords kind ws = .ok f → ∀ w ∈ ws, Connective.ofWord? w = none →
      Comparison.ofSymbol? w = none → ∃ c, .test c ∈ f ∧ (c.column = w ∨ c.literal = some w) := by
  intro hall
  have h : ofWords .delete ["id=4"] = .ok [] := by rfl
  obtain ⟨c, hc, -⟩ := hall .delete ["id=4"] [] h "id=4" (by simp) (by decide) (by decide)
  cases hc

end Filter

end TableEngine
