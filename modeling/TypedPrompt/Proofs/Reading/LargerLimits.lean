/-
# `Proofs.Reading.LargerLimits` — more room does not change an answer

Both limits are only ever asked whether there is room left.  So two runs on one
source, of which the second has at least as much room, go the same way until the
first one runs out of it: that is `expressionWithin_agrees` with every place seen.

The whole library is imported for the examples, which `cbv` runs by the equations of core
functions that it finds there.
-/
import Mathlib
import TypedPrompt.Proofs.Reading.AgreeingExpressions

namespace TypedPrompt

/-- With everything seen, the second outcome is the first one, unless that is a limit. -/
theorem Follows.eq_of_exact {α : Type} {R : α → α → Prop} (hR : ∀ a b, R a b → a = b)
    {x y : Except Failure α} (h : Follows .exact R x y) :
    y = x ∨ ∃ f, x = .error f ∧ f.isLimit = true := by
  cases h with
  | ok hab => exact .inl (congrArg Except.ok (hR _ _ hab).symm)
  | error he =>
      rw [Failure.view_exact, Failure.view_exact] at he
      exact .inl (congrArg Except.error he.symm)
  | limit hlimit => exact .inr ⟨_, rfl, hlimit⟩

namespace Expr

variable {settings settings' : Reading.Settings} {context : Context} {source : String}

/-- With larger limits a source is read as before, unless one of the limits was in the way. -/
theorem read_eq_or_limit (hfile : settings.file = settings'.file)
    (hdepth : settings.maxDepth ≤ settings'.maxDepth)
    (hnesting : settings.maxNesting ≤ settings'.maxNesting) :
    read settings' context source = read settings context source
      ∨ ∃ f, read settings context source = .error f ∧ f.isLimit = true := by
  have hlevels : (settings.maxNesting - context.nesting).toNat
      ≤ (settings'.maxNesting - context.nesting).toNat :=
    Int.toNat_le_toNat (by omega)
  have hroom : settings.maxDepth - context.depth ≤ settings'.maxDepth - context.depth :=
    Int.sub_le_sub_right hdepth _
  have hagrees := Reading.expressionWithin_agrees (v := .exact) hfile hlevels hroom
  have hfollows := Reading.complete_agrees hagrees .endOfInput
    (rfl : (tokensOf context.start source.toList).view .exact = _)
  refine hfollows.eq_of_exact fun e e' he => ?_
  have he : e.view .exact = e'.view .exact := he
  rwa [view_exact, view_exact] at he

/-- Raising a limit does not change an answer that has been reached: a tree stays the same
tree, and a fault that is not itself a limit stays the same fault. -/
theorem read_of_larger_limits (hfile : settings.file = settings'.file)
    (hdepth : settings.maxDepth ≤ settings'.maxDepth)
    (hnesting : settings.maxNesting ≤ settings'.maxNesting) :
    (∀ e, read settings context source = .ok e → read settings' context source = .ok e)
      ∧ ∀ f, read settings context source = .error f → f.isLimit = false →
          read settings' context source = .error f := by
  have hread : read settings' context source = read settings context source
      ∨ ∃ f, read settings context source = .error f ∧ f.isLimit = true :=
    read_eq_or_limit hfile hdepth hnesting
  rcases hread with hsame | ⟨g, hg, hlimit⟩
  · rw [hsame]
    exact ⟨fun e he => he, fun f hf _ => hf⟩
  · rw [hg]
    refine ⟨nofun, fun f hf hno => ?_⟩
    obtain rfl : g = f := Except.error.inj hf
    rw [hlimit] at hno
    cases hno

/-- One template in two levels, read with no room to spare and then with more of it; where
the body is missing, it is missed in both cases. -/
theorem read_of_larger_limits_template :
    let tight : Reading.Settings := ⟨"main", 1, 2⟩
    let loose : Reading.Settings := ⟨"main", 9, 64⟩
    let filled := "\"\x7b\x7bx\x7d\x7d\""
    let blank := "\"\x7b\x7b\x7d\x7d\""
    let tree := template ⟨⟨1, 1⟩, "main"⟩ [.embed (identifier ⟨⟨1, 4⟩, "main"⟩ "x")]
    let fault := Failure.syntactic .emptyInterpolation ⟨1, 1⟩
    (read tight Context.top filled = .ok tree ∧ read loose Context.top filled = .ok tree)
      ∧ read tight Context.top blank = .error fault
      ∧ read loose Context.top blank = .error fault := by
  intro tight loose filled blank tree fault
  have hfile : tight.file = loose.file := rfl
  have hdepth : tight.maxDepth ≤ loose.maxDepth := by
    decide
  have hnesting : tight.maxNesting ≤ loose.maxNesting := by
    decide
  have htree : read tight Context.top filled = .ok tree := by
    cbv
  have hfault : read tight Context.top blank = .error fault := by
    cbv
  exact ⟨⟨htree, (read_of_larger_limits hfile hdepth hnesting).1 tree htree⟩, hfault,
    (read_of_larger_limits hfile hdepth hnesting).2 fault hfault rfl⟩

end Expr

end TypedPrompt
