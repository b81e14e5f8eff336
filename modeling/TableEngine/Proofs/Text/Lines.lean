import TableEngine.Text.Lines
import Mathlib.Data.String.Basic

/-!
# Lines and their endings

`Lined ls cs` : the characters `cs` are the lines `ls` in order, each with a line feed after
it, or a carriage return and a line feed. The last line may instead end with the text, and then
it is not empty. This is what reading the lines of a text undoes (`lines_eq_iff`). No other
character ends a line, and a carriage return that no line feed follows is part of its line.

So a text that is joined from lines by line feeds has these lines again (`lines_intercalate`),
if no line is empty or contains a line feed or a carriage return.
-/

namespace TableEngine.Text

/-- The lines in order, each with its ending. -/
inductive Lined : List String → List Char → Prop
  | nil : Lined [] []
  | last {line : String} : line.toList ≠ [] → '\n' ∉ line.toList → Lined [line] line.toList
  | feed {line : String} {ls : List String} {rest : List Char} :
    '\n' ∉ line.toList → line.toList.getLast? ≠ some '\r' → Lined ls rest →
      Lined (line :: ls) (line.toList ++ '\n' :: rest)
  | returnFeed {line : String} {ls : List String} {rest : List Char} :
    '\n' ∉ line.toList → Lined ls rest → Lined (line :: ls) (line.toList ++ '\r' :: '\n' :: rest)

variable {x cs : List Char} {c : Char} {s : String} {ls : List String} {rest : List (List Char)}

/-! ## Reading lines -/

theorem splitLines_cons (hfeed : c ≠ '\n') (hreturn : c = '\r' → cs.head? ≠ some '\n') :
    splitLines (c :: cs) =
      match splitLines cs with
      | [] => [[c]]
      | line :: rest => (c :: line) :: rest :=
  splitLines.eq_4 c cs hfeed fun _ hc hcs => hreturn hc (hcs ▸ rfl)

/-- Characters that end no line are added at the front of the first line. -/
theorem splitLines_append : ∀ {x : List Char}, x ≠ [] → '\n' ∉ x →
    (x.getLast? = some '\r' → cs.head? ≠ some '\n') → splitLines (x ++ cs) =
      match splitLines cs with
      | [] => [x]
      | line :: rest => (x ++ line) :: rest
  | [c], _, hfeed, hreturn => by
    rw [List.mem_singleton] at hfeed
    exact splitLines_cons (Ne.symm hfeed) fun hc => hreturn (hc ▸ rfl)
  | c :: d :: x, _, hfeed, hreturn => by
    rw [List.mem_cons, not_or] at hfeed
    have hd : (d :: x ++ cs).head? ≠ some '\n' := fun h =>
      hfeed.2 (Option.some.inj h ▸ List.mem_cons_self)
    have ih := splitLines_append (List.cons_ne_nil d x) hfeed.2 hreturn
    rw [List.cons_append, splitLines_cons (Ne.symm hfeed.1) fun _ => hd, ih]
    cases splitLines cs <;> rfl

/-- A line is read up to its ending. -/
theorem splitLines_append_ending (hcs : splitLines cs = [] :: rest) (hfeed : '\n' ∉ x)
    (hreturn : x.getLast? = some '\r' → cs.head? ≠ some '\n') :
    splitLines (x ++ cs) = x :: rest := by
  rcases eq_or_ne x [] with rfl | hne
  · exact hcs
  · rw [splitLines_append hne hfeed hreturn, hcs]
    simp

theorem splitLines_of_lined (h : Lined ls cs) : splitLines cs = ls.map String.toList := by
  induction h with
  | nil => rw [splitLines, List.map_nil]
  | @last line hne hfeed =>
    have hread : splitLines (line.toList ++ []) = [line.toList] :=
      splitLines_append hne hfeed fun _ => by simp
    rwa [List.append_nil] at hread
  | @feed line ls rest hfeed hlast _ ih =>
    exact splitLines_append_ending (by rw [splitLines, ih]) hfeed fun h => absurd h hlast
  | @returnFeed line ls rest hfeed _ ih =>
    exact splitLines_append_ending (by rw [splitLines, ih]) hfeed fun _ => by simp

/-- A further character at the front that ends no line belongs to the first line. -/
theorem Lined.cons_char {line : String} (h : Lined (line :: ls) cs) (hfeed : c ≠ '\n')
    (hreturn : c = '\r' → cs.head? ≠ some '\n') :
    Lined (String.ofList (c :: line.toList) :: ls) (c :: cs) := by
  obtain ⟨longer, hlonger⟩ : ∃ longer, longer = String.ofList (c :: line.toList) := ⟨_, rfl⟩
  have htext : longer.toList = c :: line.toList := by rw [hlonger, String.toList_ofList]
  have hmem : '\n' ∉ line.toList → '\n' ∉ longer.toList := fun hline => by
    rw [htext]
    exact List.not_mem_cons_of_ne_of_not_mem (Ne.symm hfeed) hline
  rw [← hlonger]
  cases h with
  | last hne hline =>
    rw [← htext]
    exact .last (by simp [htext]) (hmem hline)
  | feed hline hlast h =>
    rw [← List.cons_append, ← htext]
    refine .feed (hmem hline) ?_ h
    rw [htext]
    cases hcs : line.toList with
    | nil =>
      rw [hcs] at hreturn
      simpa using fun hc => hreturn hc rfl
    | cons d x => rwa [List.getLast?_cons_cons, ← hcs]
  | returnFeed hline h =>
    rw [← List.cons_append, ← htext]
    exact .returnFeed (hmem hline) h

/-- Every text is its lines with their endings. -/
theorem lined_splitLines (cs : List Char) : Lined ((splitLines cs).map String.ofList) cs := by
  induction cs using splitLines.induct with
  | case1 =>
    rw [splitLines]
    exact .nil
  | case2 cs ih =>
    rw [splitLines]
    exact @Lined.feed "" _ _ (by simp) (by simp) ih
  | case3 cs ih =>
    rw [splitLines]
    exact @Lined.returnFeed "" _ _ (by simp) ih
  | case4 c cs hfeed hreturn hrest ih =>
    rw [hrest] at ih
    cases ih
    have h := @Lined.last (String.ofList [c]) (by simp) (by simpa using Ne.symm hfeed)
    rw [splitLines_cons hfeed fun _ => by simp, splitLines]
    simpa using h
  | case5 c cs hfeed hreturn line rest hrest ih =>
    have hhead : c = '\r' → cs.head? ≠ some '\n' := fun hc hhead =>
      hreturn _ hc (List.eq_cons_of_mem_head? hhead)
    rw [hrest, List.map_cons] at ih
    have h := ih.cons_char hfeed hhead
    rw [String.toList_ofList] at h
    rwa [splitLines_cons hfeed hhead, hrest]

theorem lines_eq_iff : lines s = ls ↔ Lined ls s.toList := by
  constructor
  · rintro rfl
    exact lined_splitLines s.toList
  · intro h
    rw [lines, splitLines_of_lined h, List.map_map]
    simp

/-! ## Lines that are joined -/

/-- Not empty, and without the characters that end a line. -/
structure IsLine (s : String) : Prop where
  ne_nil : s.toList ≠ []
  no_lineFeed : '\n' ∉ s.toList
  no_return : '\r' ∉ s.toList

theorem lined_intercalate : ∀ {ls : List String}, (∀ line ∈ ls, IsLine line) →
    Lined ls ("\n".intercalate ls).toList
  | [], _ => .nil
  | [line], h => by
    obtain ⟨hne, hfeed, -⟩ := h line List.mem_cons_self
    rw [String.intercalate_singleton]
    exact .last hne hfeed
  | line :: next :: ls, h => by
    obtain ⟨⟨-, hfeed, hreturn⟩, hrest⟩ := List.forall_mem_cons.mp h
    have htext : ("\n".intercalate (line :: next :: ls)).toList =
        line.toList ++ '\n' :: ("\n".intercalate (next :: ls)).toList := by
      rw [String.intercalate_cons_cons]
      simp
    rw [htext]
    exact .feed hfeed (fun hlast => hreturn (List.mem_of_getLast? hlast)) (lined_intercalate hrest)

theorem lines_intercalate (h : ∀ line ∈ ls, IsLine line) : lines ("\n".intercalate ls) = ls :=
  lines_eq_iff.mpr (lined_intercalate h)

end TableEngine.Text
