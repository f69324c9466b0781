/-
# `Proofs.Reading.Acceptance` — a source is read if and only if it is derivable

The two directions put together, for sources that stand on their own.  Where the
two limits on nesting are no smaller than the source is long, they are never
reached, and reading accepts the grammar and nothing else.

The tree is not determined by the tokens, since the grammar is ambiguous.  What is
read is the tree of one of the derivations.

The whole library is imported for the examples, which `cbv` runs by the equations of core
functions that it finds there.
-/
import Mathlib
import TypedPrompt.Proofs.Reading.AcceptedExpressions
import TypedPrompt.Proofs.Reading.DerivedExpressions
import TypedPrompt.Reading.Source

namespace TypedPrompt.Expr

open Grammar

/-- A source that is read has a derivation, of the tree that is read. -/
theorem derivation_of_read {settings : Reading.Settings} {context : Context} {source : String}
    {eof : Token} {ts : List Token} {e : Expr}
    (hts : tokensOf context.start source.toList = Tokens.ofList eof ts)
    (h : read settings context source = .ok e) : Expression settings.file ts e := by
  obtain ⟨eof', us, hus, he⟩ := exists_derivation_of_read h
  rw [hts] at hus
  rw [Tokens.ofList_injective hus]
  exact he

/-- A source that has a derivation is read, where it is within the limits. -/
theorem exists_read_of_derivation {settings : Reading.Settings} {source : String} {eof : Token}
    {ts : List Token} {e : Expr}
    (hts : tokensOf Position.start source.toList = Tokens.ofList eof ts)
    (hnesting : (source.length : Int) ≤ settings.maxNesting)
    (hdepth : (source.length : Int) ≤ settings.maxDepth) (h : Expression settings.file ts e) :
    ∃ e', read settings Context.top source = .ok e' := by
  have hw : Token.weights ts ≤ source.length := by
    rw [← String.length_toList]
    exact weights_tokensOf_le hts
  have haccepts := Reading.expressionWithin_accepts settings
    (settings.maxNesting - Context.top.nesting).toNat Context.top.depth source.length
    (by simp only [Context.top]; omega) (by simp only [Context.top]; omega)
  obtain ⟨e', he', -⟩ := Reading.complete_of_leaves .endOfInput
    (haccepts.whole ⟨eof, kind_eof_of_tokensOf hts⟩ h hw)
  refine ⟨e', ?_⟩
  rw [← he', ← hts]
  rfl

/-- Reading accepts exactly the grammar, and what is read is the tree of a derivation. -/
theorem read_exactly_grammar (settings : Reading.Settings) (source : String) {eof : Token}
    {ts : List Token} (hts : tokensOf Position.start source.toList = Tokens.ofList eof ts)
    (hnesting : (source.length : Int) ≤ settings.maxNesting)
    (hdepth : (source.length : Int) ≤ settings.maxDepth) :
    ((∃ e, read settings Context.top source = .ok e) ↔ ∃ e, Expression settings.file ts e)
      ∧ ∀ e, read settings Context.top source = .ok e → Expression settings.file ts e := by
  have sound : ∀ e, read settings Context.top source = .ok e → Expression settings.file ts e :=
    fun e h => derivation_of_read hts h
  refine ⟨⟨?_, ?_⟩, sound⟩
  · rintro ⟨e, he⟩
    exact ⟨e, sound e he⟩
  · rintro ⟨e, he⟩
    exact exists_read_of_derivation hts hnesting hdepth he

/-- A lambda, within limits that are no larger than its source. -/
theorem read_exactly_grammar_lambda :
    ∃ eof ts, tokensOf Position.start "(x) -> x".toList = Tokens.ofList eof ts
      ∧ ("(x) -> x".length : Int) ≤ 8
      ∧ Expression "main" ts (.lambda ⟨⟨1, 1⟩, "main"⟩ [⟨"x", none, none⟩]
          (.identifier ⟨⟨1, 8⟩, "main"⟩ "x") none) := by
  -- neither evaluation may have the other one among its hypotheses
  obtain ⟨hts, hread⟩ :
      tokensOf Position.start "(x) -> x".toList
        = Tokens.ofList ⟨.endOfInput, "", ⟨1, 9⟩, ⟨1, 9⟩⟩
            [⟨.symbol .leftParen, "(", ⟨1, 1⟩, ⟨1, 2⟩⟩, ⟨.name, "x", ⟨1, 2⟩, ⟨1, 3⟩⟩,
             ⟨.symbol .rightParen, ")", ⟨1, 3⟩, ⟨1, 4⟩⟩, ⟨.symbol .arrow, "->", ⟨1, 5⟩, ⟨1, 7⟩⟩,
             ⟨.name, "x", ⟨1, 8⟩, ⟨1, 9⟩⟩]
      ∧ read ⟨"main", 8, 8⟩ Context.top "(x) -> x"
        = .ok (.lambda ⟨⟨1, 1⟩, "main"⟩ [⟨"x", none, none⟩] (.identifier ⟨⟨1, 8⟩, "main"⟩ "x")
            none) := by
    constructor <;> cbv
  have hlength : ("(x) -> x".length : Int) ≤ 8 := by
    decide
  exact ⟨_, _, hts, hlength,
    (read_exactly_grammar ⟨"main", 8, 8⟩ "(x) -> x" hts hlength hlength).2 _ hread⟩

end TypedPrompt.Expr
