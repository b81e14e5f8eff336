import TableEngine.Row.Value
import Mathlib.Data.Nat.Digits.Defs

/-!
# Which texts are integers

A text writes an integer (`Numeral.Writes`) if it is a sign, which may be left out before a number
that is not negative, and decimal digits with that place value. Leading zeros do not count, and
`-0` is zero. `Numeral.integer?_eq_some_iff` : the reader of integers accepts these texts and no
others, and answers the integer they write. `Value.ofText_eq_integer_iff` : a value is an integer
if its text writes one of 64 bits.
-/

namespace TableEngine

namespace Numeral

/-- One or more decimal digits. -/
def Digits (cs : List Char) : Prop := cs ≠ [] ∧ ∀ c ∈ cs, c.isDigit

/-- The number that digits write : the last counts units, the one before it tens, and so on. -/
def placeValue (cs : List Char) : Nat :=
  Nat.ofDigits 10 (cs.reverse.map fun c => c.toNat - '0'.toNat)

/-- The text is digits, with or without a sign, that write the integer. -/
inductive Writes : List Char → Int → Prop
  | unsigned {cs : List Char} : Digits cs → Writes cs (placeValue cs)
  | plus {cs : List Char} : Digits cs → Writes ('+' :: cs) (placeValue cs)
  | minus {cs : List Char} : Digits cs → Writes ('-' :: cs) (-placeValue cs)

variable {cs : List Char} {n : Int}

/-- Reading digits from the left gives their place value. -/
theorem ofDigits_eq_placeValue (cs : List Char) : ofDigits cs = placeValue cs := by
  rw [placeValue, Nat.ofDigits_eq_foldr, List.map_reverse, List.foldr_reverse, List.foldl_map]
  exact congrArg (fun f => cs.foldl f 0) (funext₂ fun _ _ => Nat.add_comm _ _)

theorem natural?_eq_some_iff {m : Nat} :
    natural? cs = some m ↔ Digits cs ∧ placeValue cs = m := by
  simp [natural?, Digits, ofDigits_eq_placeValue]

theorem splitSign_cases (cs : List Char) :
    (∃ ds, cs = '-' :: ds ∧ splitSign cs = (true, ds)) ∨
    (∃ ds, cs = '+' :: ds ∧ splitSign cs = (false, ds)) ∨ splitSign cs = (false, cs) := by
  unfold splitSign
  split <;> simp

/-- Digits do not begin with a sign. -/
theorem Digits.splitSign (h : Digits cs) : splitSign cs = (false, cs) := by
  rcases splitSign_cases cs with ⟨ds, rfl, -⟩ | ⟨ds, rfl, -⟩ | hsplit
  · exact absurd (h.2 '-' List.mem_cons_self) (by decide)
  · exact absurd (h.2 '+' List.mem_cons_self) (by decide)
  · exact hsplit

theorem integer?_of_digits {negative : Bool} {ds : List Char}
    (hsplit : splitSign cs = (negative, ds)) (h : Digits ds) :
    integer? cs = some (withSign negative (placeValue ds)) := by
  rw [integer?, hsplit]
  exact congrArg (Option.map (withSign negative)) (natural?_eq_some_iff.mpr ⟨h, rfl⟩)

/-- The reader accepts the texts that write an integer and answers that integer. -/
theorem integer?_eq_some_iff : integer? cs = some n ↔ Writes cs n := by
  constructor
  · intro h
    have hdigits : ∀ {negative ds}, splitSign cs = (negative, ds) →
        Digits ds ∧ withSign negative (placeValue ds) = n := fun hsplit => by
      rw [integer?, hsplit] at h
      obtain ⟨m, hm, hn⟩ := Option.map_eq_some_iff.mp h
      obtain ⟨hds, rfl⟩ := natural?_eq_some_iff.mp hm
      exact ⟨hds, hn⟩
    rcases splitSign_cases cs with ⟨ds, rfl, hsplit⟩ | ⟨ds, rfl, hsplit⟩ | hsplit
    · obtain ⟨hds, rfl⟩ := hdigits hsplit
      exact .minus hds
    · obtain ⟨hds, rfl⟩ := hdigits hsplit
      exact .plus hds
    · obtain ⟨hds, rfl⟩ := hdigits hsplit
      exact .unsigned hds
  · rintro (hds | hds | hds)
    · exact integer?_of_digits hds.splitSign hds
    · exact integer?_of_digits rfl hds
    · exact integer?_of_digits rfl hds

end Numeral

theorem isWord_iff {n : Int} : isWord n = true ↔ -2 ^ 63 ≤ n ∧ n < 2 ^ 63 := by
  rw [isWord, Int64.toInt_minValue, Int64.toInt_maxValue, Bool.and_eq_true, decide_eq_true_iff,
    decide_eq_true_iff]
  omega

theorem Value.ofText_eq_integer_iff {s : String} {n : Int} :
    ofText s = .integer n ↔ Numeral.Writes s.toList n ∧ -2 ^ 63 ≤ n ∧ n < 2 ^ 63 := by
  rw [← Numeral.integer?_eq_some_iff, ← isWord_iff, ← Option.filter_eq_some_iff, ofText]
  cases (Numeral.integer? s.toList).filter isWord with
  | some m => simp
  | none => cases Numeral.ofText? s.toList <;> simp

end TableEngine
