import TableEngine.Proofs.Checked.Word
import Mathlib.Data.Nat.Digits.Lemmas
import Mathlib.Algebra.BigOperators.Fin

/-!
# The closed form of the polynomial hash

The running state reduces its two numbers at every code unit and is carried from one piece of a
text to the next. What comes out is still the sum of `unit i * 31 ^ i` over the UTF-16 code units
of the whole text, reduced once at the end (`Polynomial.feed_pieces`).

`Polynomial.hash_foldl_feedUnit_modEq` is the induction over the units. The state it starts from
is any one that is reduced, since the first unit leaves a hash and a power behind :
`hash + power * u₀ + power * 31 * u₁ + …`. How the text is cut does not matter, because units are
read one by one and a piece holds whole characters (`Polynomial.foldl_feed`).

`Encodes` says what the UTF-16 code units of a text are, with no mention of how they are computed.
-/

namespace TableEngine.Hash

open Checked

/-! ## UTF-16 -/

/-- The code units of one character : its number, or a high and a low surrogate with ten bits
each of what is left of the number. -/
inductive EncodesChar : List UInt16 → Char → Prop
  | one {unit : UInt16} {c : Char} (h : c.toNat = unit.toNat) : EncodesChar [unit] c
  | pair {high low : UInt16} {c : Char} (hhigh : 0xD800 ≤ high.toNat ∧ high.toNat < 0xDC00)
      (hlow : 0xDC00 ≤ low.toNat ∧ low.toNat < 0xE000)
      (h : c.toNat = 0x10000 + (high.toNat - 0xD800) * 0x400 + (low.toNat - 0xDC00)) :
      EncodesChar [high, low] c

/-- The code units of a text. -/
inductive Encodes : List UInt16 → List Char → Prop
  | nil : Encodes [] []
  | cons {units rest : List UInt16} {c : Char} {cs : List Char} (h : EncodesChar units c)
      (hrest : Encodes rest cs) : Encodes (units ++ rest) (c :: cs)

theorem toNat_toUInt16 {n : Nat} (h : n < 0x10000) : n.toUInt16.toNat = n :=
  UInt16.toNat_ofNat_of_lt h

theorem char_toNat_lt (c : Char) : c.toNat < 0x110000 := by
  have hvalid : c.toNat < 0xD800 ∨ 0xDFFF < c.toNat ∧ c.toNat < 0x110000 := c.valid
  omega

theorem encodesChar_units16 (c : Char) : EncodesChar (units16 c) c := by
  have hc := char_toNat_lt c
  rw [units16]
  split
  · next h => exact .one (toNat_toUInt16 h).symm
  · next h =>
    have hhigh := toNat_toUInt16 (show 0xD800 + (c.toNat - 0x10000) / 0x400 < 0x10000 by omega)
    have hlow := toNat_toUInt16 (show 0xDC00 + (c.toNat - 0x10000) % 0x400 < 0x10000 by omega)
    exact .pair (by omega) (by omega) (by omega)

example : units16 '𝄞' = [0xD834, 0xDD1E] := by decide

theorem EncodesChar.eq_units16 {units : List UInt16} {c : Char} (h : EncodesChar units c) :
    units = units16 c := by
  cases h with
  | @one unit _ h =>
    rw [units16, if_pos (show c.toNat < 0x10000 by rw [h]; exact unit.toNat_lt), h]
    simp
  | @pair high low _ hhigh hlow h =>
    have hh : 0xD800 + (c.toNat - 0x10000) / 0x400 = high.toNat := by omega
    have hl : 0xDC00 + (c.toNat - 0x10000) % 0x400 = low.toNat := by omega
    simp only [units16, if_neg (show ¬ c.toNat < 0x10000 by omega), hh, hl]
    simp

/-- A text has one encoding. -/
theorem encodes_iff {units : List UInt16} {cs : List Char} :
    Encodes units cs ↔ units = cs.flatMap units16 := by
  constructor
  · intro h
    induction h with
    | nil => rfl
    | cons h _ ih => rw [List.flatMap_cons, h.eq_units16, ih]
  · rintro rfl
    induction cs with
    | nil => exact .nil
    | cons c cs ih => exact .cons (encodesChar_units16 c) ih

namespace Polynomial

/-! ## One unit, and all units -/

section FeedUnit

variable {p : Polynomial} (h : p.Reduced) (unit : UInt16)
include h

theorem hash_feedUnit_modEq : (p.feedUnit unit).hash.toNat ≡
    p.hash.toNat + unit.toNat * p.power.toNat [MOD modulus.toNat] := by
  rw [toNat_hash_feedUnit h]
  exact (Nat.mod_modEq _ _).trans ((Nat.mod_modEq _ _).add_left _)

theorem power_feedUnit_modEq : (p.feedUnit unit).power.toNat ≡
    p.power.toNat * base.toNat [MOD modulus.toNat] := by
  rw [toNat_power_feedUnit h]
  exact Nat.mod_modEq _ _

end FeedUnit

theorem reduced_foldl_feedUnit : ∀ {p : Polynomial} (units : List UInt16), p.Reduced →
    (units.foldl feedUnit p).Reduced
  | _, [], h => h
  | p, unit :: units, _ => reduced_foldl_feedUnit units (p.reduced_feedUnit unit)

theorem hash_foldl_feedUnit_modEq : ∀ {p : Polynomial} (units : List UInt16), p.Reduced →
    (units.foldl feedUnit p).hash.toNat ≡
      p.hash.toNat + p.power.toNat * Nat.ofDigits base.toNat (units.map UInt16.toNat)
        [MOD modulus.toNat]
  | _, [], _ => Nat.ModEq.rfl
  | p, unit :: units, h => by
    -- the rest is read from the state after this unit, whose numbers are known up to the modulus
    have ih := hash_foldl_feedUnit_modEq units (p.reduced_feedUnit unit)
    rw [List.foldl_cons, List.map_cons, Nat.ofDigits_cons]
    calc (units.foldl feedUnit (p.feedUnit unit)).hash.toNat
      _ ≡ (p.feedUnit unit).hash.toNat + (p.feedUnit unit).power.toNat *
            Nat.ofDigits base.toNat (units.map UInt16.toNat) [MOD modulus.toNat] := ih
      _ ≡ p.hash.toNat + unit.toNat * p.power.toNat + p.power.toNat * base.toNat *
            Nat.ofDigits base.toNat (units.map UInt16.toNat) [MOD modulus.toNat] :=
        (hash_feedUnit_modEq h unit).add ((power_feedUnit_modEq h unit).mul_right _)
      _ = p.hash.toNat + p.power.toNat *
            (unit.toNat + base.toNat * Nat.ofDigits base.toNat (units.map UInt16.toNat)) := by
        ring

/-- Digits that are code units, as a sum over their positions. -/
theorem ofDigits_map_toNat (b : Nat) : ∀ units : List UInt16,
    Nat.ofDigits b (units.map UInt16.toNat) =
      ∑ i : Fin units.length, units[i].toNat * b ^ (i : Nat)
  | [] => rfl
  | unit :: units => by
    have hrest : ∑ i : Fin units.length, units[i].toNat * b ^ ((i : Nat) + 1) =
        b * ∑ i : Fin units.length, units[i].toNat * b ^ (i : Nat) := by
      rw [Finset.mul_sum]
      exact Finset.sum_congr rfl fun i _ => by ring
    simp only [List.length_cons]
    rw [Fin.sum_univ_succ, List.map_cons, Nat.ofDigits_cons, ofDigits_map_toNat b units, ← hrest]
    simp

/-- From the start the hash is the sum, reduced once. -/
theorem hash_foldl_feedUnit_start (units : List UInt16) :
    (units.foldl feedUnit start).hash.toNat =
      (∑ i : Fin units.length, units[i].toNat * base.toNat ^ (i : Nat)) % modulus.toNat := by
  have hlt : (units.foldl feedUnit start).hash.toNat < modulus.toNat :=
    UInt64.lt_iff_toNat_lt.mp (reduced_foldl_feedUnit units reduced_start).1
  have hmod := hash_foldl_feedUnit_modEq units reduced_start
  rw [Nat.ModEq, Nat.mod_eq_of_lt hlt, ofDigits_map_toNat] at hmod
  simpa [start] using hmod

/-! ## Pieces of a text -/

theorem feed_append (p : Polynomial) (s t : String) : p.feed (s ++ t) = (p.feed s).feed t := by
  simp only [feed, String.toList_append, List.flatMap_append, List.foldl_append]

/-- Reading a text piece by piece is reading it at once. -/
theorem foldl_feed : ∀ (p : Polynomial) (pieces : List String),
    pieces.foldl feed p = p.feed (String.join pieces)
  | _, [] => rfl
  | p, piece :: pieces => by
    rw [List.foldl_cons, foldl_feed, ← feed_append, String.join_cons]

/-- `Polynomial.feed`, every step in a word. -/
def checkedFeed (p : Polynomial) (piece : String) : Checked Polynomial :=
  (piece.toList.flatMap units16).foldlM checkedFeedUnit p

theorem foldlM_checkedFeed : ∀ {p : Polynomial} (pieces : List String), p.Reduced →
    pieces.foldlM checkedFeed p = .ok (pieces.foldl feed p)
  | _, [], _ => rfl
  | p, piece :: pieces, h => by
    rw [List.foldlM_cons, checkedFeed, foldlM_checkedFeedUnit _ h, bind_ok, List.foldl_cons]
    exact foldlM_checkedFeed pieces (reduced_foldl_feedUnit _ h)

/-- However a text is cut into pieces, the hash is the sum of `unit i * 31 ^ i` over the UTF-16
code units of the whole text, modulo 1 000 000 007, and so below that. No number on the way
overflows a word, and the text as one piece has the same hash. -/
theorem feed_pieces (pieces : List String) : ∃ units : List UInt16,
    (∀ us, Encodes us (String.join pieces).toList ↔ us = units) ∧
    (pieces.foldl feed start).hash.toNat =
      (∑ i : Fin units.length, units[i].toNat * 31 ^ (i : Nat)) % 1000000007 ∧
    (pieces.foldl feed start).hash.toNat < 1000000007 ∧
    pieces.foldlM checkedFeed start = .ok (pieces.foldl feed start) ∧
    polynomialHash (String.join pieces) = (pieces.foldl feed start).hash := by
  have hhash : (pieces.foldl feed start).hash.toNat =
      (∑ i : Fin ((String.join pieces).toList.flatMap units16).length,
        ((String.join pieces).toList.flatMap units16)[i].toNat * 31 ^ (i : Nat)) % 1000000007 := by
    rw [foldl_feed]
    exact hash_foldl_feedUnit_start _
  refine ⟨(String.join pieces).toList.flatMap units16, fun _ => encodes_iff, hhash,
    hhash ▸ Nat.mod_lt _ (by decide), foldlM_checkedFeed pieces reduced_start, ?_⟩
  rw [foldl_feed, polynomialHash]

end Polynomial

end TableEngine.Hash
