import TableEngine.Proofs.Number.Integer

/-!
# The laws of comparisons

Two texts are compared as integers, as binary64 numbers or as texts. Whichever it is, the six
comparisons are those of one pair of integers, in both orders of the texts
(`Comparison.Ordered`), or those of texts, which have no order (`Comparison.compare_cases`). So the
laws of an order hold of any two numbers, and of texts those of equality. `Comparison.compare_laws`
collects them.

Two texts that write integers of 64 bits (`Numeral.Writes`) are compared by the very integers, which
binary64 numbers cannot always tell apart.
-/

namespace TableEngine

namespace Value

/-- The text stands for a number. -/
def isNumber (v : Value) : Bool := v.number?.isSome

theorem isNumber_eq_false_iff {v : Value} :
    v.isNumber = false ↔ v.number? = none ∧ v.integer? = none := by
  cases v <;> simp [isNumber, number?, integer?]

end Value

namespace Comparison

variable {l r : String}

/-- The comparison that holds when the sides are exchanged. -/
def swap : Comparison → Comparison
  | equal => equal
  | unequal => unequal
  | less => greater
  | greater => less
  | atMost => atLeast
  | atLeast => atMost

/-! ## Integers and texts -/

theorem holds_swap (c : Comparison) (a b : Int) : c.swap.holds b a = c.holds a b := by
  cases c <;> simp [swap, holds, eq_comm, bne]

theorem holds_atMost (a b : Int) : atMost.holds a b = !greater.holds a b := by
  rw [holds, holds, ← decide_not]
  exact decide_eq_decide.mpr Int.not_lt.symm

theorem holds_atLeast (a b : Int) : atLeast.holds a b = !less.holds a b := by
  rw [holds, holds, ← decide_not]
  exact decide_eq_decide.mpr Int.not_lt.symm

/-- Exactly one of the three holds. -/
theorem countP_holds (a b : Int) : [less, equal, greater].countP (·.holds a b) = 1 := by
  rcases Int.lt_trichotomy a b with h | rfl | h
  · simp [holds, h, h.ne, h.le]
  · simp [holds]
  · simp [holds, h, h.ne', h.le]

theorem holdsOfText_swap (c : Comparison) (s t : String) :
    c.swap.holdsOfText t s = c.holdsOfText s t := by
  cases c <;> simp [swap, holdsOfText, eq_comm, bne]

/-! ## What is compared -/

/-- The texts are compared as two integers are, in both orders. -/
def Ordered (l r : String) : Prop :=
  ∃ a b : Int, ∀ c : Comparison, c.compare l r = c.holds a b ∧ c.compare r l = c.holds b a

theorem compare_of_integers {a b : Int} (hl : Value.ofText l = .integer a)
    (hr : Value.ofText r = .integer b) (c : Comparison) : c.compare l r = c.holds a b := by
  simp only [compare, hl, hr, Value.integer?]

/-- Two numbers are compared by themselves if they are integers, and otherwise by their places in
the order of the binary64 numbers. -/
theorem ordered_of_numbers (hl : (Value.ofText l).isNumber) (hr : (Value.ofText r).isNumber) :
    Ordered l r := by
  obtain ⟨x, hx⟩ := Option.isSome_iff_exists.mp hl
  obtain ⟨y, hy⟩ := Option.isSome_iff_exists.mp hr
  cases hi : (Value.ofText l).integer? with
  | none => exact ⟨x.order, y.order, fun c => by simp [compare, hi, hx, hy]⟩
  | some a =>
    cases hj : (Value.ofText r).integer? with
    | none => exact ⟨x.order, y.order, fun c => by simp [compare, hi, hj, hx, hy]⟩
    | some b => exact ⟨a, b, fun c => by simp [compare, hi, hj]⟩

/-- If one of the texts is not a number they are compared as texts. -/
theorem compare_of_text
    (h : (Value.ofText l).isNumber = false ∨ (Value.ofText r).isNumber = false) (c : Comparison) :
    c.compare l r = c.holdsOfText l r := by
  rw [Value.isNumber_eq_false_iff, Value.isNumber_eq_false_iff] at h
  rcases h with ⟨hnumber, hinteger⟩ | ⟨hnumber, hinteger⟩
  · simp [compare, hnumber, hinteger]
  · simp [compare, hnumber, hinteger]

theorem compare_cases (l r : String) : Ordered l r ∨
    ∀ c : Comparison, c.compare l r = c.holdsOfText l r ∧ c.compare r l = c.holdsOfText r l := by
  cases hl : (Value.ofText l).isNumber with
  | false => exact Or.inr fun c => ⟨compare_of_text (.inl hl) c, compare_of_text (.inr hl) c⟩
  | true =>
    cases hr : (Value.ofText r).isNumber with
    | false => exact Or.inr fun c => ⟨compare_of_text (.inr hr) c, compare_of_text (.inl hr) c⟩
    | true => exact Or.inl (ordered_of_numbers hl hr)

/-! ## The laws -/

/-- Equal to itself, whatever the text stands for. -/
theorem compare_equal_self (s : String) : equal.compare s s = true := by
  simp only [compare]
  cases (Value.ofText s).integer? with
  | some n => simp [holds]
  | none => cases (Value.ofText s).number? <;> simp [holds, holdsOfText]

theorem compare_unequal (l r : String) : unequal.compare l r = !equal.compare l r := by
  rcases compare_cases l r with ⟨a, b, h⟩ | h
  · rw [(h unequal).1, (h equal).1]
    rfl
  · rw [(h unequal).1, (h equal).1]
    rfl

theorem compare_swap (c : Comparison) (l r : String) : c.swap.compare r l = c.compare l r := by
  rcases compare_cases l r with ⟨a, b, h⟩ | h
  · rw [(h c.swap).2, (h c).1, holds_swap]
  · rw [(h c.swap).2, (h c).1, holdsOfText_swap]

/-- Every text equals itself, unequal is the opposite of equal, and with the sides exchanged
equality stays what it is while less and greater change places. Of two numbers exactly one of less,
equal and greater holds, and the other two are the opposites of greater and of less. Of a text
nothing holds but equality, and that only of the same text. Two integers of 64 bits are those that
the texts write, and are compared exactly. -/
theorem compare_laws (l r : String) :
    equal.compare l l = true ∧
    unequal.compare l r = !equal.compare l r ∧
    (∀ c : Comparison, c.swap.compare r l = c.compare l r) ∧
    (if (Value.ofText l).isNumber && (Value.ofText r).isNumber then
      [less, equal, greater].countP (·.compare l r) = 1 ∧
      atMost.compare l r = !greater.compare l r ∧ atLeast.compare l r = !less.compare l r
    else
      (∀ c ∈ [less, greater, atMost, atLeast], c.compare l r = false) ∧
      (equal.compare l r = true ↔ l = r)) ∧
    ∀ a b : Int, Value.ofText l = .integer a → Value.ofText r = .integer b →
      (Numeral.Writes l.toList a ∧ -2 ^ 63 ≤ a ∧ a < 2 ^ 63) ∧
      (Numeral.Writes r.toList b ∧ -2 ^ 63 ≤ b ∧ b < 2 ^ 63) ∧
      (equal.compare l r = true ↔ a = b) ∧ (unequal.compare l r = true ↔ a ≠ b) ∧
      (less.compare l r = true ↔ a < b) ∧ (greater.compare l r = true ↔ a > b) ∧
      (atMost.compare l r = true ↔ a ≤ b) ∧ (atLeast.compare l r = true ↔ a ≥ b) := by
  refine ⟨compare_equal_self l, compare_unequal l r, fun c => compare_swap c l r, ?_,
    fun a b hl hr => ⟨Value.ofText_eq_integer_iff.mp hl, Value.ofText_eq_integer_iff.mp hr, ?_⟩⟩
  · split
    · next hnumbers =>
      rw [Bool.and_eq_true] at hnumbers
      obtain ⟨a, b, h⟩ := ordered_of_numbers hnumbers.1 hnumbers.2
      have hcompare : ∀ c : Comparison, c.compare l r = c.holds a b := fun c => (h c).1
      simp only [hcompare]
      exact ⟨countP_holds a b, holds_atMost a b, holds_atLeast a b⟩
    · next htext =>
      rw [Bool.and_eq_true, not_and_or, Bool.not_eq_true, Bool.not_eq_true] at htext
      have hcompare : ∀ c : Comparison, c.compare l r = c.holdsOfText l r := compare_of_text htext
      simp only [hcompare]
      exact ⟨by simp [holdsOfText], by simp [holdsOfText]⟩
  · have hcompare : ∀ c : Comparison, c.compare l r = c.holds a b := compare_of_integers hl hr
    simp [hcompare, holds]

/-- Integers that are the same binary64 number, one of them with a sign and leading zeros. -/
theorem compare_laws_adjacent :
    let l := "+0009007199254740993"
    let r := "9007199254740992"
    Value.ofText l = .integer 9007199254740993 ∧ Value.ofText r = .integer 9007199254740992 ∧
      Binary64.ofInt 9007199254740993 = Binary64.ofInt 9007199254740992 ∧
      equal.compare l r = false ∧ greater.compare l r = true := by
  intro l r
  have hl : Value.ofText l = .integer 9007199254740993 := by decide +kernel
  have hr : Value.ofText r = .integer 9007199254740992 := by decide +kernel
  obtain ⟨-, -, -, -, hintegers⟩ := compare_laws l r
  obtain ⟨-, -, hequal, -, -, hgreater, -⟩ := hintegers _ _ hl hr
  exact ⟨hl, hr, by decide +kernel, by rw [Bool.eq_false_iff, ne_eq, hequal]; decide,
    hgreater.mpr (by decide)⟩

end Comparison

end TableEngine
