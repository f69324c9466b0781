/-
# `Proofs.Source.Places` — places and what stands at them

`Position.after` moves character by character.  Counted over a whole text, it adds
one line for each line feed, and the column is counted from the last of them
(`after_eq_counted`).

A place is passed only once: `Position.Precedes` is the order in which the places
of a text come, and every character moves on in it.  So a place of a text tells
what stands there, and `textFrom` finds it (`textFrom_after`).
-/
import Mathlib.Data.List.Induction
import TypedPrompt.Source.Position

namespace TypedPrompt.Position

/-! ## Counting -/

/-- The place behind a text that begins at `p`: the line feeds in it give the line,
and the characters behind the last one the column. -/
def counted (p : Position) (cs : List Char) : Position where
  line := p.line + cs.count '\n'
  column :=
    if '\n' ∈ cs then 1 + (cs.reverse.takeWhile (· ≠ '\n')).length
    else p.column + cs.length

/-- One character more. -/
theorem counted_append_singleton (p : Position) (cs : List Char) (c : Char) :
    p.counted (cs ++ [c]) = (p.counted cs).step c := by
  by_cases hc : c = '\n'
  · subst hc
    simp [counted, step, Int.add_assoc]
  · have hc' : '\n' ≠ c := Ne.symm hc
    by_cases hm : '\n' ∈ cs
    · simp [counted, step, hc, hc', hm, Int.add_assoc]
    · simp [counted, step, hc, hc', hm, Int.add_assoc]

/-- Moving over a text is counting it. -/
theorem after_eq_counted (p : Position) (cs : List Char) : p.after cs = p.counted cs := by
  induction cs using List.reverseRecOn with
  | nil => simp [counted]
  | append_singleton cs c ih =>
      rw [after_append, counted_append_singleton, ih]
      rfl

/-! ## The order of places -/

/-- The place comes earlier in a text. -/
def Precedes (p q : Position) : Prop := p.line < q.line ∨ (p.line = q.line ∧ p.column < q.column)

theorem precedes_step (p : Position) (c : Char) : p.Precedes (p.step c) := by
  unfold Precedes step
  split
  · exact .inl (Int.lt_succ p.line)
  · exact .inr ⟨rfl, Int.lt_succ p.column⟩

theorem Precedes.trans {p q r : Position} (h : p.Precedes q) (h' : q.Precedes r) :
    p.Precedes r := by
  unfold Precedes at *
  omega

/-- Behind a text that is not empty there is a later place. -/
theorem precedes_after (p : Position) (c : Char) (cs : List Char) :
    p.Precedes (p.after (c :: cs)) := by
  induction cs generalizing p c with
  | nil => exact precedes_step p c
  | cons d cs ih => exact (precedes_step p c).trans (ih (p.step c) d)

theorem ne_of_precedes {p q : Position} (h : p.Precedes q) : p ≠ q := by
  rintro rfl
  unfold Precedes at h
  omega

/-! ## What stands at a place -/

/-- The rest of a text that begins at `p`, from the place `q` on. -/
def textFrom (p : Position) (cs : List Char) (q : Position) : Option (List Char) :=
  if p = q then some cs
  else
    match cs with
    | [] => none
    | c :: cs => textFrom (p.step c) cs q

/-- Behind a piece of the text stands the rest of it. -/
theorem textFrom_after (p : Position) (before rest : List Char) :
    p.textFrom (before ++ rest) (p.after before) = some rest := by
  induction before generalizing p with
  | nil =>
      rw [List.nil_append, after_nil, textFrom.eq_def, if_pos rfl]
  | cons c before ih =>
      rw [List.cons_append, textFrom.eq_def, if_neg (ne_of_precedes (precedes_after p c before))]
      exact ih (p.step c)

end TypedPrompt.Position
