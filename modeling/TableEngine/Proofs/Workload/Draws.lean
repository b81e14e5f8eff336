import TableEngine.Sampling.Uniform
import Mathlib

/-!
# What draws yield

A property of what is drawn that holds whatever the state of the generator (`Draw.Yields`) is put
together along the steps of the draw (`Draw.Yields.bind`), and of a list along the list
(`yields_drawEach`). From a generator that keeps its positions in range, `pick` yields one of its
choices (`yields_pick`).

`chacha` is such a generator (`inRange_chacha`), however often a word has to be drawn again.
-/

namespace TableEngine.Sampling

variable {g : Generator} {α β : Type}

/-- Whatever the state, what is drawn has the property. -/
def Draw.Yields (d : Draw g α) (P : α → Prop) : Prop := ∀ s, P (StateT.run d s).1

namespace Draw.Yields

variable {P : α → Prop} {Q : β → Prop} {d : Draw g α} {next : α → Draw g β}

theorem any (d : Draw g α) : d.Yields fun _ => True := fun _ => trivial

theorem pure {a : α} (h : P a) : Draw.Yields (g := g) (Pure.pure a) P := fun _ => h

/-- What the next draw yields may rest on what this one does. -/
theorem bind (h : d.Yields P) (hnext : ∀ a, P a → (next a).Yields Q) : Draw.Yields (d >>= next) Q :=
  fun s => hnext _ (h s) _

end Draw.Yields

/-! ## Choices and lists -/

theorem Generator.InRange.yields (hg : g.InRange) {n : Nat} (hn : 0 < n) :
    Draw.Yields (g.position n) (· < n) := hg n hn

theorem yields_pick (hg : g.InRange) {choices : List String} (hne : choices ≠ []) :
    (pick g choices).Yields (· ∈ choices) :=
  (hg.yields (List.length_pos_iff.mpr hne)).bind fun i hi => .pure (by
    rw [List.getD_eq_getElem _ _ hi]
    exact List.getElem_mem hi)

theorem yields_drawEach {draw : Nat → Draw g α} {P : α → Prop} (h : ∀ i, (draw i).Yields P) :
    ∀ numbers, (drawEach draw numbers).Yields fun drawn => ∀ a ∈ drawn, P a
  | [] => .pure nofun
  | i :: rest => (h i).bind fun _ ha => (yields_drawEach h rest).bind fun _ hdrawn =>
    .pure (List.forall_mem_cons.mpr ⟨ha, hdrawn⟩)

theorem length_drawEach (draw : Nat → Draw g α) : ∀ numbers,
    (drawEach draw numbers).Yields fun drawn => drawn.length = numbers.length
  | [] => .pure rfl
  | i :: rest => (Draw.Yields.any (draw i)).bind fun _ _ => (length_drawEach draw rest).bind
    fun _ hdrawn => .pure (congrArg (· + 1) hdrawn)

/-! ## The ChaCha generator -/

theorem inRange_chacha : chacha.InRange := by
  intro n hn s
  obtain ⟨m, rfl⟩ := Nat.exists_eq_succ_of_ne_zero hn.ne'
  have hdrawn : (StateT.run (chacha.position (m + 1)) s).1 =
      0 + (StateT.run (upTo word64 64 m) s).1 := rfl
  rw [hdrawn, Nat.zero_add]
  exact Fin.isLt _

end TableEngine.Sampling
