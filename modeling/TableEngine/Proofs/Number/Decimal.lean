import TableEngine.Proofs.Number.Integer
import Mathlib

/-!
# Which texts are numbers

A decimal numeral is a sign that may be left out, a significand and an exponent that may be left
out. `Numeral.Denotes` relates a text of this form to its parts. `Numeral.ofText?_eq_some_iff` : the
reader of numerals accepts the texts that denote a numeral and no others, and answers the numeral
that they denote.

Every text is therefore of one of three kinds (`Value.ofText_kinds`) : the integers of 64 bits, the
other numerals, and all the rest. The same kinds come from a coarse test of the characters
(`Numeral.looksDecimal`) in front of a reader that also takes the names of the infinities and of
what is not a number (`Value.ofTested`) : every numeral passes the test, and no such name does.
-/

namespace TableEngine

namespace Numeral

/-! ## The form of a numeral -/

/-- A sign, or none. The numeral is negative after a minus. -/
inductive Sign : List Char → Bool → Prop
  | absent : Sign [] false
  | plus : Sign ['+'] false
  | minus : Sign ['-'] true

/-- Digits with the point left out, behind them, among them or before them : the digits before the
point and the digits after it. -/
inductive Significand : List Char → List Char → List Char → Prop
  | whole {ds : List Char} : Digits ds → Significand ds ds []
  | pointed {ds es : List Char} : Digits ds → (∀ c ∈ es, c.isDigit) →
    Significand (ds ++ '.' :: es) ds es
  | fraction {es : List Char} : Digits es → Significand ('.' :: es) [] es

/-- Nothing, or a letter `e` in either case and an integer. -/
inductive Exponent : List Char → Int → Prop
  | absent : Exponent [] 0
  | lower {cs : List Char} {n : Int} : Writes cs n → Exponent ('e' :: cs) n
  | upper {cs : List Char} {n : Int} : Writes cs n → Exponent ('E' :: cs) n

/-- The text is a sign, a significand and an exponent, and the numeral has their parts. -/
inductive Denotes : List Char → Numeral → Prop
  | intro {sign m e ds es : List Char} {negative : Bool} {n : Int} : Sign sign negative →
    Significand m ds es → Exponent e n → Denotes (sign ++ (m ++ e)) ⟨negative, ds, es, n⟩

variable {cs ds es m e : List Char} {n : Int} {x : Numeral}

/-! ## Reading the parts -/

/-- Digits are read up to the first character that is none. -/
theorem span_digits (hds : ∀ c ∈ ds, c.isDigit = true) (he : ∀ c ∈ e.head?, c.isDigit = false) :
    (ds ++ e).takeWhile Char.isDigit = ds ∧ (ds ++ e).dropWhile Char.isDigit = e := by
  rw [List.takeWhile_append_of_pos hds, List.dropWhile_append_of_pos hds]
  cases e with
  | nil => exact ⟨List.append_nil ds, rfl⟩
  | cons c e =>
    have hc : ¬c.isDigit = true := Bool.not_eq_true _ ▸ he c rfl
    rw [List.takeWhile_cons_of_neg hc, List.dropWhile_cons_of_neg hc]
    exact ⟨List.append_nil ds, rfl⟩

/-- The sign that is split off, with what it says. -/
theorem sign_splitSign (cs : List Char) :
    ∃ sign, Sign sign (splitSign cs).1 ∧ cs = sign ++ (splitSign cs).2 := by
  rcases splitSign_cases cs with ⟨ds, rfl, hsplit⟩ | ⟨ds, rfl, hsplit⟩ | hsplit
  · exact ⟨_, .minus, rfl⟩
  · exact ⟨_, .plus, rfl⟩
  · rw [hsplit]
    exact ⟨_, .absent, rfl⟩

theorem exponent?_eq_some_iff : exponent? cs = some n ↔ Exponent cs n := by
  constructor
  · intro h
    unfold exponent? at h
    split at h
    · cases h
      exact .absent
    · exact .lower (integer?_eq_some_iff.mp h)
    · exact .upper (integer?_eq_some_iff.mp h)
    · cases h
  · rintro (_ | hwrites | hwrites)
    · rfl
    · exact integer?_eq_some_iff.mpr hwrites
    · exact integer?_eq_some_iff.mpr hwrites

/-- An exponent begins neither with a digit nor with a point. -/
theorem Exponent.head (h : Exponent e n) : ∀ c ∈ e.head?, c.isDigit = false ∧ c ≠ '.' := by
  cases h with
  | absent => nofun
  | lower => exact fun c hc => Option.some.inj hc ▸ by decide
  | upper => exact fun c hc => Option.some.inj hc ▸ by decide

theorem splitFraction_cases (cs : List Char) :
    (∃ ds, cs = '.' :: ds ∧
      splitFraction cs = (ds.takeWhile Char.isDigit, ds.dropWhile Char.isDigit)) ∨
    splitFraction cs = ([], cs) := by
  unfold splitFraction
  split <;> simp

theorem Exponent.splitFraction (h : Exponent e n) : splitFraction e = ([], e) := by
  rcases splitFraction_cases e with ⟨ds, rfl, -⟩ | hsplit
  · exact absurd rfl (h.head '.' rfl).2
  · exact hsplit

/-- A significand begins with a digit or with a point. -/
theorem Significand.head (h : Significand m ds es) :
    ∃ c cs, m = c :: cs ∧ (c.isDigit = true ∨ c = '.') := by
  have hdigit : ∀ {ds : List Char}, Digits ds → ∃ c cs, ds = c :: cs ∧ c.isDigit = true :=
    fun {ds} hds => by
      obtain ⟨c, cs, rfl⟩ := List.exists_cons_of_ne_nil hds.1
      exact ⟨c, cs, rfl, hds.2 c List.mem_cons_self⟩
  cases h with
  | whole hds =>
    obtain ⟨c, cs, rfl, hc⟩ := hdigit hds
    exact ⟨c, cs, rfl, .inl hc⟩
  | pointed hds =>
    obtain ⟨c, cs, rfl, hc⟩ := hdigit hds
    exact ⟨c, _, rfl, .inl hc⟩
  | fraction => exact ⟨'.', es, rfl, .inr rfl⟩

/-- A significand does not begin with a sign. -/
theorem Significand.splitSign (h : Significand m ds es) (e : List Char) :
    splitSign (m ++ e) = (false, m ++ e) := by
  obtain ⟨c, cs, rfl, hc⟩ := h.head
  rcases splitSign_cases (c :: cs ++ e) with ⟨_, heq, -⟩ | ⟨_, heq, -⟩ | hsplit
  · cases heq
    exact absurd hc (by decide)
  · cases heq
    exact absurd hc (by decide)
  · exact hsplit

/-! ## The reader and the form -/

/-- What is read of a significand with an exponent behind it. -/
theorem ofUnsigned?_append {negative : Bool} (hm : Significand m ds es) (he : Exponent e n) :
    ofUnsigned? negative (m ++ e) = some ⟨negative, ds, es, n⟩ := by
  have hdigit : ∀ c ∈ e.head?, c.isDigit = false := fun c hc => (he.head c hc).1
  have hread : exponent? e = some n := exponent?_eq_some_iff.mpr he
  cases hm with
  | whole hds =>
    obtain ⟨htake, hdrop⟩ := span_digits hds.2 hdigit
    simp [ofUnsigned?, htake, hdrop, he.splitFraction, hread, hds.1]
  | @pointed ds es hds hes =>
    obtain ⟨htake, hdrop⟩ := span_digits (e := '.' :: (es ++ e)) hds.2 (by simp)
    obtain ⟨htake', hdrop'⟩ := span_digits hes hdigit
    simp [ofUnsigned?, htake, hdrop, splitFraction, htake', hdrop', hread, hds.1]
  | fraction hes =>
    obtain ⟨htake, hdrop⟩ := span_digits hes.2 hdigit
    simp [ofUnsigned?, splitFraction, htake, hdrop, hread, hes.1]

/-- What is read, by the point where the text is split. Digits stand before the point or after. -/
theorem parts_of_ofUnsigned? {negative : Bool} (h : ofUnsigned? negative cs = some x)
    (hsplit : splitFraction (cs.dropWhile Char.isDigit) = (es, e)) :
    (cs.takeWhile Char.isDigit = [] → es ≠ []) ∧
      ∃ n, Exponent e n ∧ x = ⟨negative, cs.takeWhile Char.isDigit, es, n⟩ := by
  simp only [ofUnsigned?, hsplit, Option.ite_none_left_eq_some] at h
  obtain ⟨hsome, h⟩ := h
  obtain ⟨n, hn, rfl⟩ := Option.map_eq_some_iff.mp h
  exact ⟨by simpa using hsome, n, exponent?_eq_some_iff.mp hn, rfl⟩

theorem ofUnsigned?_eq_some_iff {negative : Bool} :
    ofUnsigned? negative cs = some x ↔
      ∃ m e ds es n, cs = m ++ e ∧ Significand m ds es ∧ Exponent e n ∧
        x = ⟨negative, ds, es, n⟩ := by
  constructor
  · intro h
    have hdigits : ∀ ds : List Char, ∀ c ∈ ds.takeWhile Char.isDigit, c.isDigit := fun _ _ =>
      List.mem_takeWhile_imp
    have hcs := (List.takeWhile_append_dropWhile (p := Char.isDigit) (l := cs)).symm
    rcases splitFraction_cases (cs.dropWhile Char.isDigit) with ⟨ds, hpoint, hsplit⟩ | hsplit
    · obtain ⟨hsome, n, he, rfl⟩ := parts_of_ofUnsigned? h hsplit
      rw [hpoint, ← List.takeWhile_append_dropWhile (p := Char.isDigit) (l := ds)] at hcs
      -- without digits before the point the form asks for digits after it
      by_cases hnone : cs.takeWhile Char.isDigit = []
      · rw [hnone] at hcs ⊢
        exact ⟨'.' :: _, _, _, _, n, hcs, .fraction ⟨hsome hnone, hdigits ds⟩, he, rfl⟩
      · refine ⟨_ ++ '.' :: _, _, _, _, n, ?_, .pointed ⟨hnone, hdigits cs⟩ (hdigits ds), he, rfl⟩
        rw [List.append_assoc]
        exact hcs
    · obtain ⟨hsome, n, he, rfl⟩ := parts_of_ofUnsigned? h hsplit
      have hnone : cs.takeWhile Char.isDigit ≠ [] := fun hnone => hsome hnone rfl
      exact ⟨_, _, _, _, n, hcs, .whole ⟨hnone, hdigits cs⟩, he, rfl⟩
  · rintro ⟨m, e, ds, es, n, rfl, hm, he, rfl⟩
    exact ofUnsigned?_append hm he

/-- The reader accepts the texts that denote a numeral and answers that numeral. -/
theorem ofText?_eq_some_iff : ofText? cs = some x ↔ Denotes cs x := by
  constructor
  · intro h
    obtain ⟨sign, hsign, hcs⟩ := sign_splitSign cs
    have hread : ofUnsigned? (splitSign cs).1 (splitSign cs).2 = some x := h
    obtain ⟨m, e, _, _, n, hunsigned, hm, he, rfl⟩ := ofUnsigned?_eq_some_iff.mp hread
    have hdenotes := Denotes.intro hsign hm he
    rwa [← hunsigned, ← hcs] at hdenotes
  · rintro ⟨hsign, hm, he⟩
    rw [← ofUnsigned?_append hm he]
    cases hsign with
    | absent => rw [List.nil_append, ofText?, hm.splitSign]
    | plus => rfl
    | minus => rfl

/-- Digits are a numeral also where they are too many for an integer of 64 bits. -/
theorem Writes.denotes (h : Writes cs n) : ∃ x, Denotes cs x := by
  have hnumeral : ∀ {sign ds negative}, Sign sign negative → Digits ds →
      ∃ x, Denotes (sign ++ ds) x := fun {sign ds negative} hsign hds => by
    have hdenotes := Denotes.intro hsign (.whole hds) .absent
    exact ⟨_, List.append_nil ds ▸ hdenotes⟩
  cases h with
  | unsigned hds => exact hnumeral .absent hds
  | plus hds => exact hnumeral .plus hds
  | minus hds => exact hnumeral .minus hds

/-! ## The characters of a numeral -/

/-- The signs, the point and the letter that begins an exponent. -/
def marks : List Char := ['+', '-', '.', 'e', 'E']

/-- The characters that a numeral can have. -/
def Occurs (c : Char) : Prop := c.isDigit ∨ c ∈ marks

theorem occurs_of_digits (h : ∀ c ∈ cs, c.isDigit) : ∀ c ∈ cs, Occurs c := fun c hc =>
  .inl (h c hc)

theorem occurs_cons {c : Char} (hc : c ∈ marks) (h : ∀ c ∈ cs, Occurs c) :
    ∀ d ∈ c :: cs, Occurs d :=
  List.forall_mem_cons.mpr ⟨.inr hc, h⟩

theorem Sign.occurs {negative : Bool} (h : Sign cs negative) : ∀ c ∈ cs, Occurs c := by
  cases h <;> simp [Occurs, marks]

theorem Writes.occurs (h : Writes cs n) : ∀ c ∈ cs, Occurs c := by
  cases h with
  | unsigned hds => exact occurs_of_digits hds.2
  | plus hds => exact occurs_cons (by decide) (occurs_of_digits hds.2)
  | minus hds => exact occurs_cons (by decide) (occurs_of_digits hds.2)

theorem Significand.occurs (h : Significand m ds es) : ∀ c ∈ m, Occurs c := by
  cases h with
  | whole hds => exact occurs_of_digits hds.2
  | pointed hds hes =>
    exact List.forall_mem_append.mpr
      ⟨occurs_of_digits hds.2, occurs_cons (by decide) (occurs_of_digits hes)⟩
  | fraction hes => exact occurs_cons (by decide) (occurs_of_digits hes.2)

theorem Exponent.occurs (h : Exponent e n) : ∀ c ∈ e, Occurs c := by
  cases h with
  | absent => nofun
  | lower hwrites => exact occurs_cons (by decide) hwrites.occurs
  | upper hwrites => exact occurs_cons (by decide) hwrites.occurs

theorem Denotes.occurs (h : Denotes cs x) : ∀ c ∈ cs, Occurs c := by
  obtain ⟨hsign, hm, he⟩ := h
  exact List.forall_mem_append.mpr ⟨hsign.occurs, List.forall_mem_append.mpr ⟨hm.occurs, he.occurs⟩⟩

theorem Digits.exists_digit (h : Digits cs) : ∃ c ∈ cs, c.isDigit := by
  obtain ⟨c, hc⟩ := List.exists_mem_of_ne_nil cs h.1
  exact ⟨c, hc, h.2 c hc⟩

/-- Some digit stands outside the exponent. -/
theorem Significand.exists_digit (h : Significand m ds es) : ∃ c ∈ m, c.isDigit := by
  cases h with
  | whole hds => exact hds.exists_digit
  | pointed hds =>
    obtain ⟨c, hc, hdigit⟩ := hds.exists_digit
    exact ⟨c, List.mem_append_left _ hc, hdigit⟩
  | fraction hes =>
    obtain ⟨c, hc, hdigit⟩ := hes.exists_digit
    exact ⟨c, List.mem_cons_of_mem _ hc, hdigit⟩

theorem Denotes.exists_digit (h : Denotes cs x) : ∃ c ∈ cs, c.isDigit := by
  obtain ⟨hsign, hm, he⟩ := h
  obtain ⟨c, hc, hdigit⟩ := hm.exists_digit
  exact ⟨c, List.mem_append_right _ (List.mem_append_left _ hc), hdigit⟩

/-! ## The coarse test -/

/-- The character is no letter, or the one that begins an exponent. -/
def passes (c : Char) : Bool := !c.isAlpha || c == 'e' || c == 'E'

/-- The text has a digit, and no letter but the one that begins an exponent. -/
def looksDecimal (cs : List Char) : Bool := cs.any Char.isDigit && cs.all passes

/-- The names of the infinities and of what is not a number, with or without a sign, in either case
of their letters. -/
inductive Special : List Char → Prop
  | intro {sign cs : List Char} {negative : Bool} : Sign sign negative →
    cs.map Char.toLower ∈ ["inf".toList, "infinity".toList, "nan".toList] → Special (sign ++ cs)

theorem isAlpha_of_isDigit {c : Char} (h : c.isDigit) : c.isAlpha = false := by
  grind [Char.isDigit, Char.isAlpha, Char.isUpper, Char.isLower]

theorem passes_of_occurs {c : Char} (h : Occurs c) : passes c = true := by
  rcases h with hdigit | hmark
  · simp [passes, isAlpha_of_isDigit hdigit]
  · have hmarks : marks.all passes = true := by decide
    exact List.all_eq_true.mp hmarks c hmark

theorem Denotes.looksDecimal (h : Denotes cs x) : looksDecimal cs = true :=
  Bool.and_eq_true_iff.mpr ⟨List.any_eq_true.mpr h.exists_digit,
    List.all_eq_true.mpr fun c hc => passes_of_occurs (h.occurs c hc)⟩

/-- Every special name has an `n`. -/
theorem Special.exists_mem (h : Special cs) : ∃ c ∈ cs, c.toLower = 'n' := by
  cases h with
  | @intro sign cs _ _ hname =>
    have hn : 'n' ∈ cs.map Char.toLower := by
      simp only [List.mem_cons, List.not_mem_nil, or_false] at hname
      rcases hname with heq | heq | heq <;> simp [heq]
    obtain ⟨c, hc, heq⟩ := List.mem_map.mp hn
    exact ⟨c, List.mem_append_right sign hc, heq⟩

/-- An `n` fails the test in both cases. -/
theorem not_passes_of_toLower {c : Char} (h : c.toLower = 'n') : passes c = false := by
  have halpha : c.isAlpha = true := by
    rw [← Char.isAlpha_toLower_eq_isAlpha, h]
    decide
  have hne : c ≠ 'e' ∧ c ≠ 'E' := by
    constructor <;> rintro rfl <;> exact absurd h (by decide)
  simp [passes, halpha, hne.1, hne.2]

theorem Special.not_looksDecimal (h : Special cs) : looksDecimal cs = false := by
  obtain ⟨c, hc, hn⟩ := h.exists_mem
  exact Bool.and_eq_false_iff.mpr (.inr (List.all_eq_false.mpr
    ⟨c, hc, by simp [not_passes_of_toLower hn]⟩))

/-- A special name is no numeral. -/
theorem Special.not_denotes (h : Special cs) : ¬Denotes cs x := fun hdenotes =>
  absurd hdenotes.looksDecimal (by simp [h.not_looksDecimal])

/-- A reader that takes the numerals and at most the special names besides, which it may read as
it likes. -/
structure Reads (read : List Char → Option Binary64) : Prop where
  numeral {cs : List Char} {x : Numeral} : Denotes cs x → read cs = some x.toBinary64
  denotes_or_special {cs : List Char} {b : Binary64} : read cs = some b →
    (∃ x, Denotes cs x) ∨ Special cs

/-- Behind the coarse test such a reader takes the numerals alone. -/
theorem Reads.tested {read : List Char → Option Binary64} (h : Reads read) (cs : List Char) :
    (if looksDecimal cs then read cs else none) = (ofText? cs).map toBinary64 := by
  cases hnumeral : ofText? cs with
  | some x =>
    have hdenotes : Denotes cs x := ofText?_eq_some_iff.mp hnumeral
    rw [if_pos hdenotes.looksDecimal, h.numeral hdenotes, Option.map_some]
  | none =>
    rw [Option.map_none, ite_eq_right_iff, Option.eq_none_iff_forall_ne_some]
    intro htest b hread
    rcases h.denotes_or_special hread with ⟨x, hdenotes⟩ | hspecial
    · rw [ofText?_eq_some_iff.mpr hdenotes] at hnumeral
      cases hnumeral
    · rw [hspecial.not_looksDecimal] at htest
      cases htest

/-- The numerals and the names of the infinities. -/
def readInfinite (cs : List Char) : Option Binary64 :=
  ((ofText? cs).map toBinary64).or
    (if (splitSign cs).2.map Char.toLower ∈ ["inf".toList, "infinity".toList] then
      some (.infinity (splitSign cs).1)
    else none)

theorem reads_readInfinite : Reads readInfinite where
  numeral h := by
    rw [readInfinite, ofText?_eq_some_iff.mpr h]
    rfl
  denotes_or_special {cs b} h := by
    rcases Option.or_eq_some_iff.mp h with hnumeral | ⟨-, hname⟩
    · obtain ⟨x, hx, -⟩ := Option.map_eq_some_iff.mp hnumeral
      exact .inl ⟨x, ofText?_eq_some_iff.mp hx⟩
    · obtain ⟨sign, hsign, hcs⟩ := sign_splitSign cs
      have hmem := (Option.ite_none_right_eq_some.mp hname).1
      rw [hcs]
      refine .inr (.intro hsign ?_)
      exact List.mem_append_left ["nan".toList] hmem

/-- The text writes an integer of 64 bits. -/
def WritesWord (cs : List Char) : Prop := ∃ n, Writes cs n ∧ -2 ^ 63 ≤ n ∧ n ≤ 2 ^ 63 - 1

end Numeral

/-! ## The three kinds -/

namespace Value

variable {s : String}

/-- The text is no integer of 64 bits. -/
theorem filter_isWord_eq_none_iff :
    (Numeral.integer? s.toList).filter isWord = none ↔ ¬Numeral.WritesWord s.toList := by
  have hle : ∀ n : Int, n ≤ 2 ^ 63 - 1 ↔ n < 2 ^ 63 := fun n => Int.le_sub_one_iff
  simp only [Option.eq_none_iff_forall_ne_some, ne_eq, Option.filter_eq_some_iff,
    Numeral.integer?_eq_some_iff, isWord_iff, Numeral.WritesWord, hle, not_exists]

theorem ofText_eq_decimal_iff {b : Binary64} :
    ofText s = .decimal b ↔
      ¬Numeral.WritesWord s.toList ∧ ∃ x, Numeral.Denotes s.toList x ∧ x.toBinary64 = b := by
  simp only [← filter_isWord_eq_none_iff, ← Numeral.ofText?_eq_some_iff, ofText]
  cases (Numeral.integer? s.toList).filter isWord with
  | some m => simp
  | none => cases Numeral.ofText? s.toList <;> simp

theorem ofText_eq_text_iff {t : String} :
    ofText s = .text t ↔
      t = s ∧ ¬Numeral.WritesWord s.toList ∧ ¬∃ x, Numeral.Denotes s.toList x := by
  simp only [← filter_isWord_eq_none_iff, ← Numeral.ofText?_eq_some_iff, ofText]
  cases (Numeral.integer? s.toList).filter isWord with
  | some m => simp
  | none => cases Numeral.ofText? s.toList <;> simp [eq_comm]

/-- An integer is a numeral too, so that only the form of numerals is in question. -/
theorem ofText_eq_text (h : ¬∃ x, Numeral.Denotes s.toList x) : ofText s = .text s :=
  ofText_eq_text_iff.mpr ⟨rfl, fun ⟨_, hwrites, _⟩ => h hwrites.denotes, h⟩

end Value

/-- Classify a text by a coarse test and a reader of numbers that may take more than numerals. -/
def Value.ofTested (read : List Char → Option Binary64) (raw : String) : Value :=
  match (Numeral.integer? raw.toList).filter isWord with
  | some n => integer n
  | none =>
    match if Numeral.looksDecimal raw.toList then read raw.toList else none with
    | some b => decimal b
    | none => text raw

/-- A text is an integer if it writes one of 64 bits. It is a decimal number if it does not and has
the form of a numeral, and then the number is that of the numeral, rounded once. All other texts
are kept. Among these are the texts without a digit, those with a character that no numeral has,
and the names of the infinities and of what is not a number. The coarse test in front of a reader
that takes these names too classifies every text alike. -/
theorem Value.ofText_kinds (s : String) :
    (∀ n, ofText s = .integer n ↔
      Numeral.Writes s.toList n ∧ -2 ^ 63 ≤ n ∧ n ≤ 2 ^ 63 - 1) ∧
    (∀ b, ofText s = .decimal b ↔
      ¬Numeral.WritesWord s.toList ∧ ∃ x, Numeral.Denotes s.toList x ∧ x.toBinary64 = b) ∧
    (∀ t, ofText s = .text t ↔
      t = s ∧ ¬Numeral.WritesWord s.toList ∧ ¬∃ x, Numeral.Denotes s.toList x) ∧
    ((∀ c ∈ s.toList, ¬c.isDigit) ∨ (∃ c ∈ s.toList, ¬Numeral.Occurs c) ∨
      Numeral.Special s.toList → ofText s = .text s) ∧
    ∀ read, Numeral.Reads read → ofTested read s = ofText s := by
  refine ⟨fun n => ?integer, fun b => ofText_eq_decimal_iff, fun t => ofText_eq_text_iff, ?kept,
    fun read hread => ?tested⟩
  case integer => rw [ofText_eq_integer_iff, Int.le_sub_one_iff]
  case kept =>
    refine fun hcases => ofText_eq_text fun ⟨x, hx⟩ => ?_
    rcases hcases with hnone | ⟨c, hc, hforeign⟩ | hspecial
    · obtain ⟨c, hc, hdigit⟩ := hx.exists_digit
      exact hnone c hc hdigit
    · exact hforeign (hx.occurs c hc)
    · exact hspecial.not_denotes hx
  case tested =>
    rw [ofTested, hread.tested, ofText]
    cases Numeral.ofText? s.toList <;> rfl

/-- The name of an infinity in mixed case is kept, also in front of a reader that takes it. -/
theorem Value.ofText_kinds_infinity :
    Numeral.Special "-Infinity".toList ∧ ofText "-Infinity" = .text "-Infinity" ∧
      Numeral.readInfinite "-Infinity".toList = some (.infinity true) ∧
      ofTested Numeral.readInfinite "-Infinity" = .text "-Infinity" := by
  have hspecial : Numeral.Special "-Infinity".toList := .intro .minus (by decide)
  have hread : Numeral.readInfinite "-Infinity".toList = some (.infinity true) := by decide
  obtain ⟨-, -, -, hkept, htested⟩ := ofText_kinds "-Infinity"
  have hsame := htested Numeral.readInfinite Numeral.reads_readInfinite
  have htext := hkept (.inr (.inr hspecial))
  exact ⟨hspecial, htext, hread, hsame.trans htext⟩

end TableEngine
