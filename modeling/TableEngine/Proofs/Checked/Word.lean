import TableEngine.Hash.Polynomial
import TableEngine.Proofs.Store.Load
import TableEngine.Store.Probe

/-!
# Arithmetic and array accesses with checks

The stores compute with numbers that have no bound, and read past the end of an array
without complaint. Here is the same arithmetic on words of 64 bits, and the same accesses,
with every step that can go wrong checked : the answer is a value or a `Panic`.

The products of the load rule fit a word as long as the capacity is at most `2 ^ 32`
(`Checked.growing_eq`, `Checked.shrinking_eq`). The slot formulas of the probe sequences
never overflow on such an array (`Probe.checkedSlot_eq`), and neither does the hash that
picks a bucket, whatever the text (`Hash.checkedHash_eq`).
-/

namespace TableEngine

/-- Why an operation cannot go on. -/
inductive Panic
  /-- A number does not fit a word of 64 bits. -/
  | overflow
  | divisionByZero
  /-- An index is not below the length of its array. -/
  | outOfBounds
  /-- A walk has examined every slot and none is free. -/
  | noFreeSlot
  /-- The slot of a key holds no entry. -/
  | noEntry
  deriving DecidableEq, Repr

/-- A value, or the reason why there is none. -/
abbrev Checked (α : Type) := Except Panic α

namespace Checked

/-- A number that has to fit a word. -/
def word (n : Nat) : Checked Nat := if n < 2 ^ 64 then .ok n else .error .overflow

/-- A difference of words. -/
def sub (m n : Nat) : Checked Nat := if n ≤ m then .ok (m - n) else .error .overflow

/-- A remainder of words. -/
def mod (m n : Nat) : Checked Nat := if n = 0 then .error .divisionByZero else .ok (m % n)

variable {α : Type} {xs : Array α} {i : Nat} {a : α}

def read (xs : Array α) (i : Nat) : Checked α :=
  match xs[i]? with
  | some a => .ok a
  | none => .error .outOfBounds

def write (xs : Array α) (i : Nat) (a : α) : Checked (Array α) :=
  if i < xs.size then .ok (xs.setIfInBounds i a) else .error .outOfBounds

/-- Change an element of an array in place. -/
def change (xs : Array α) (i : Nat) (f : α → α) : Checked (Array α) :=
  if i < xs.size then .ok (xs.modify i f) else .error .outOfBounds

/-- An answer that has to be there. -/
def found (answer : Option α) (panic : Panic) : Checked α :=
  match answer with
  | some a => .ok a
  | none => .error panic

theorem bind_ok {β : Type} (a : α) (f : α → Checked β) :
    ((.ok a : Checked α) >>= f) = f a := rfl

theorem word_eq {n : Nat} (h : n < 2 ^ 64) : word n = .ok n := if_pos h

theorem sub_eq {m n : Nat} (h : n ≤ m) : sub m n = .ok (m - n) := if_pos h

theorem mod_eq {m n : Nat} (h : 0 < n) : mod m n = .ok (m % n) := if_neg (by omega)

theorem read_eq (h : xs[i]? = some a) : read xs i = .ok a := by simp [read, h]

theorem write_eq (h : i < xs.size) : write xs i a = .ok (xs.setIfInBounds i a) := if_pos h

theorem change_eq (h : i < xs.size) (f : α → α) : change xs i f = .ok (xs.modify i f) := if_pos h

/-! ## The load rule -/

variable {S : Type} {size capacity : Nat} {s t : S} {rebuild : Nat → Checked S}

/-- Rebuild a store at twice its capacity if the load asks for it. -/
def growing (size capacity : Nat) (s : S) (rebuild : Nat → Checked S) : Checked S := do
  let used ← word (size * 4)
  let limit ← word (capacity * 3)
  if used ≥ limit then rebuild (← word (capacity * 2)) else .ok s

/-- Rebuild a store at half its capacity if the load asks for it. -/
def shrinking (size capacity : Nat) (s : S) (rebuild : Nat → Checked S) : Checked S := do
  let used ← word (size * 4)
  if used ≤ capacity ∧ capacity > initialCapacity then rebuild (capacity / 2) else .ok s

theorem growing_eq (hle : size * 4 ≤ capacity * 3) (hcap : capacity ≤ 2 ^ 32)
    (ht : needsGrow size capacity → rebuild (capacity * 2) = .ok t) :
    growing size capacity s rebuild = .ok (if needsGrow size capacity then t else s) := by
  simp only [growing, word_eq (show size * 4 < 2 ^ 64 by omega),
    word_eq (show capacity * 3 < 2 ^ 64 by omega), word_eq (show capacity * 2 < 2 ^ 64 by omega),
    bind_ok]
  split
  · next hg => rw [if_pos (needsGrow_iff.mpr hg), ht (needsGrow_iff.mpr hg)]
  · next hg => rw [if_neg (mt needsGrow_iff.mp hg)]

theorem shrinking_eq (hle : size ≤ capacity) (hcap : capacity ≤ 2 ^ 32)
    (ht : needsShrink size capacity → rebuild (capacity / 2) = .ok t) :
    shrinking size capacity s rebuild = .ok (if needsShrink size capacity then t else s) := by
  simp only [shrinking, word_eq (show size * 4 < 2 ^ 64 by omega), bind_ok]
  split
  · next hs => rw [if_pos (needsShrink_iff.mpr hs), ht (needsShrink_iff.mpr hs)]
  · next hs => rw [if_neg (mt needsShrink_iff.mp hs)]

end Checked

open Checked

/-! ## The slots of a probe sequence -/

namespace Probe

/-- `Probe.offset`, every product and sum in a word. -/
def checkedOffset (p : Probe) (hash : UInt64) (attempt capacity : Nat) : Checked Nat :=
  match p with
  | linear => word attempt
  | quadratic => do
    let next ← word (attempt + 1)
    let product ← word (attempt * next)
    .ok (product / 2)
  | double => do
    let high ← mod (hash >>> 32).toNat capacity
    word (attempt * (high ||| 1))

/-- `Probe.slot`, every product and sum in a word. -/
def checkedSlot (p : Probe) (hash : UInt64) (attempt capacity : Nat) : Checked Nat := do
  let start ← mod hash.toNat capacity
  let offset ← p.checkedOffset hash attempt capacity
  let sum ← word (start + offset)
  mod sum capacity

variable (p : Probe) (hash : UInt64) {attempt capacity : Nat}

theorem step_lt (hpos : 0 < capacity) (hcap : capacity ≤ 2 ^ 32) :
    step hash capacity < 2 ^ 32 := by
  have hlt : (hash >>> 32).toNat % capacity < 2 ^ 32 :=
    lt_of_lt_of_le (Nat.mod_lt _ hpos) hcap
  exact Nat.or_lt_two_pow hlt (by decide)

/-- Two factors below `2 ^ 32` and a summand of that size fit a word together. -/
theorem mul_add_lt {a b c : Nat} (ha : a < 2 ^ 32) (hb : b ≤ 2 ^ 32) (hc : c < 2 ^ 32) :
    a * b + c < 2 ^ 64 := by
  have hab : a * b ≤ (2 ^ 32 - 1) * 2 ^ 32 := Nat.mul_le_mul (by omega) hb
  omega

theorem checkedOffset_eq (hlt : attempt < capacity) (hcap : capacity ≤ 2 ^ 32) :
    p.checkedOffset hash attempt capacity = .ok (p.offset hash attempt capacity) := by
  have hattempt : attempt < 2 ^ 32 := lt_of_lt_of_le hlt hcap
  cases p with
  | linear => exact word_eq (by omega)
  | quadratic =>
    have hproduct : attempt * (attempt + 1) < 2 ^ 64 :=
      mul_add_lt (c := 0) hattempt (by omega) (by omega)
    simp only [checkedOffset, word_eq (show attempt + 1 < 2 ^ 64 by omega), bind_ok,
      word_eq hproduct]
    rfl
  | double =>
    have hpos : 0 < capacity := by omega
    have hproduct : attempt * step hash capacity < 2 ^ 64 :=
      mul_add_lt (c := 0) hattempt (step_lt hash hpos hcap).le (by omega)
    simp only [checkedOffset, mod_eq hpos, bind_ok]
    exact word_eq hproduct

theorem start_add_offset_lt (hlt : attempt < capacity) (hcap : capacity ≤ 2 ^ 32) :
    hash.toNat % capacity + p.offset hash attempt capacity < 2 ^ 64 := by
  have hattempt : attempt < 2 ^ 32 := lt_of_lt_of_le hlt hcap
  have hstart : hash.toNat % capacity < 2 ^ 32 :=
    lt_of_lt_of_le (Nat.mod_lt _ (by omega)) hcap
  cases p with
  | linear =>
    simp only [offset]
    omega
  | quadratic =>
    have hsum := mul_add_lt hattempt (show attempt + 1 ≤ 2 ^ 32 by omega) hstart
    have hhalf : attempt * (attempt + 1) / 2 ≤ attempt * (attempt + 1) := Nat.div_le_self _ _
    simp only [offset]
    omega
  | double =>
    have hstep := step_lt hash (show 0 < capacity by omega) hcap
    have hsum := mul_add_lt hattempt hstep.le hstart
    simp only [offset]
    omega

/-- On an array of at most `2 ^ 32` slots no attempt overflows a word. -/
theorem checkedSlot_eq (hlt : attempt < capacity) (hcap : capacity ≤ 2 ^ 32) :
    p.checkedSlot hash attempt capacity = .ok (p.slot hash attempt capacity) := by
  have hpos : 0 < capacity := by omega
  simp only [checkedSlot, mod_eq hpos, bind_ok, p.checkedOffset_eq hash hlt hcap,
    word_eq (p.start_add_offset_lt hash hlt hcap)]
  rfl

/-- On a larger array a late attempt does overflow. -/
example : quadratic.checkedSlot 0 (2 ^ 32) (2 ^ 33) = .error .overflow := by decide

end Probe

/-! ## The hash of a text -/

namespace Hash

namespace Polynomial

/-- `Polynomial.feedUnit`, every product and sum in a word. -/
def checkedFeedUnit (p : Polynomial) (unit : UInt16) : Checked Polynomial := do
  let product ← word (unit.toNat * p.power.toNat)
  let sum ← word (p.hash.toNat + product % modulus.toNat)
  let power ← word (p.power.toNat * base.toNat)
  .ok ⟨.ofNat (sum % modulus.toNat), .ofNat (power % modulus.toNat)⟩

/-- Both numbers are remainders. -/
def Reduced (p : Polynomial) : Prop := p.hash < modulus ∧ p.power < modulus

theorem reduced_start : start.Reduced := ⟨by decide, by decide⟩

theorem reduced_feedUnit (p : Polynomial) (unit : UInt16) : (p.feedUnit unit).Reduced :=
  ⟨UInt64.mod_lt _ (by decide), UInt64.mod_lt _ (by decide)⟩

section FeedUnit

variable {p : Polynomial} (h : p.Reduced) (unit : UInt16)
include h

/-- The numbers that one code unit leads to, all of them words. -/
theorem feedUnit_bounds : unit.toNat * p.power.toNat < 2 ^ 64 ∧
    p.hash.toNat + unit.toNat * p.power.toNat % modulus.toNat < 2 ^ 64 ∧
      p.power.toNat * base.toNat < 2 ^ 64 := by
  have hmodulus : modulus.toNat = 1000000007 := rfl
  have hbase : base.toNat = 31 := rfl
  have hhash : p.hash.toNat < modulus.toNat := UInt64.lt_iff_toNat_lt.mp h.1
  have hpower : p.power.toNat < modulus.toNat := UInt64.lt_iff_toNat_lt.mp h.2
  have hunit : unit.toNat < 65536 := unit.toNat_lt
  have hproduct : unit.toNat * p.power.toNat ≤ 65535 * 1000000006 :=
    Nat.mul_le_mul (by omega) (by omega)
  rw [hmodulus, hbase] at *
  omega

theorem toNat_hash_feedUnit : (p.feedUnit unit).hash.toNat =
    (p.hash.toNat + unit.toNat * p.power.toNat % modulus.toNat) % modulus.toNat := by
  obtain ⟨hproduct, hsum, -⟩ := feedUnit_bounds h unit
  simp only [feedUnit, UInt64.toNat_mod, UInt64.toNat_add, UInt64.toNat_mul,
    UInt16.toNat_toUInt64]
  rw [Nat.mod_eq_of_lt hproduct, Nat.mod_eq_of_lt hsum]

theorem toNat_power_feedUnit : (p.feedUnit unit).power.toNat =
    p.power.toNat * base.toNat % modulus.toNat := by
  obtain ⟨-, -, hpower⟩ := feedUnit_bounds h unit
  simp only [feedUnit, UInt64.toNat_mod, UInt64.toNat_mul]
  rw [Nat.mod_eq_of_lt hpower]

theorem checkedFeedUnit_eq : p.checkedFeedUnit unit = .ok (p.feedUnit unit) := by
  obtain ⟨hproduct, hsum, hpower⟩ := feedUnit_bounds h unit
  simp only [checkedFeedUnit, word_eq hproduct, word_eq hsum, word_eq hpower, bind_ok]
  rw [← toNat_hash_feedUnit h, ← toNat_power_feedUnit h, UInt64.ofNat_toNat, UInt64.ofNat_toNat]

end FeedUnit

theorem foldlM_checkedFeedUnit : ∀ {p : Polynomial} (units : List UInt16), p.Reduced →
    units.foldlM checkedFeedUnit p = .ok (units.foldl feedUnit p)
  | _, [], _ => rfl
  | p, unit :: units, h => by
    rw [List.foldlM_cons, checkedFeedUnit_eq h, bind_ok, List.foldl_cons]
    exact foldlM_checkedFeedUnit units (p.reduced_feedUnit unit)

end Polynomial

/-- `polynomialHash` of a text, every step in a word. -/
def checkedHash (text : String) : Checked Nat := do
  let p ← (text.toList.flatMap units16).foldlM Polynomial.checkedFeedUnit Polynomial.start
  .ok p.hash.toNat

/-- The hash of a text never overflows a word. -/
theorem checkedHash_eq (text : String) : checkedHash text = .ok (polynomialHash text).toNat := by
  rw [checkedHash, Polynomial.foldlM_checkedFeedUnit _ Polynomial.reduced_start, bind_ok]
  rfl

end Hash

end TableEngine
