/-
# `Proofs.Reading.WellFormedTrees` — what every tree that is read is like

The tree type admits more than can be written: a pipeline of one stage, a template
without anything embedded, a null constant, a union inside a union.  `WellFormed` says
of a single node what the grammar leaves of that, and `read_wellFormed` that it holds
at every node of a tree that is read, and of every type written there.

A derivation has most of it among its side conditions.  What is left is the splitting
of template texts, where the runs have to be as long as can be, and the normal form of
types (`Ty.wellFormed_of_annotation`).

The whole library is imported for the examples, which `cbv` runs by the equations of core
functions that it finds there.
-/
import Mathlib
import TypedPrompt.Proofs.Reading.Forms
import TypedPrompt.Proofs.Reading.WrittenTypes

namespace TypedPrompt

/-- A constant that can be written: no null and no data, and no text that would be
taken for a template. -/
def Value.IsConstant : Value → Prop
  | .bool _ | .int _ | .real _ => True
  | .str s => ¬ Piece.openMark <:+: s.toList
  | .null | .arr _ | .obj _ => False

namespace Expr

/-- A part of a template that is text. -/
def isText : Part Expr → Bool
  | .text _ => true
  | .embed _ => false

/-- Something is embedded, and the text around it is in pieces as long as can be. -/
structure AreTemplateParts (parts : List (Part Expr)) : Prop where
  embedded : ∃ e, .embed e ∈ parts
  text : ∀ s, .text s ∈ parts → s ≠ "" ∧ ¬ Piece.openMark <:+: s.toList
  apart : parts.IsChain fun p q => isText p = false ∨ isText q = false

/-- A node that can be written, whatever is below it. -/
def WellFormed : Expr → Prop
  | literal _ value => value.IsConstant
  | identifier .. => True
  | lambda _ params _ _ => (params.map Parameter.name).Nodup
  | application _ _ arguments => arguments ≠ []
  | letIn _ bindings _ => bindings ≠ [] ∧ (bindings.map Binding.name).Nodup
  | template _ parts => AreTemplateParts parts
  | pipeline _ stages => 2 ≤ stages.length
  | assertion .. => True
  | bare _ => False

end Expr

namespace Grammar

open TypedPrompt.Expr (AreTemplateParts)

variable {file : String} {ts : List Token} {e : Expr}

/-! ## Constants and templates -/

theorem Denotes.isConstant {n : Token} {v : Value} (h : Denotes n v) : v.IsConstant := by
  cases h with
  | integer | real => exact trivial

theorem PartOf.isText {piece : Piece} {part : Part Expr} (h : PartOf file piece part) :
    Expr.isText part = piece.isText := by
  cases h with
  | text | body => rfl

/-- Parts stand apart as the pieces do. -/
theorem isChain_of_forall₂ {pieces : List Piece} {parts : List (Part Expr)}
    (h : List.Forall₂ (PartOf file) pieces parts)
    (hc : pieces.IsChain fun p q => p.isText = false ∨ q.isText = false) :
    parts.IsChain fun p q => Expr.isText p = false ∨ Expr.isText q = false := by
  induction h with
  | nil => exact .nil
  | @cons piece part pieces parts hp h ih =>
      cases h with
      | nil => exact .singleton part
      | cons hq _ =>
          obtain ⟨hpq, hc⟩ := List.isChain_cons_cons.mp hc
          refine List.isChain_cons_cons.mpr ⟨?_, ih hc⟩
          rwa [hp.isText, hq.isText]

theorem areTemplateParts_of_split {p : Position} {cs : List Char} {pieces : List Piece}
    {parts : List (Part Expr)} (hs : Piece.Split p cs pieces) (hopen : Piece.openMark <:+: cs)
    (hparts : List.Forall₂ (PartOf file) pieces parts) : AreTemplateParts parts where
  embedded := by
    obtain ⟨start, inside, hm⟩ := hs.exists_body hopen
    obtain ⟨part, hpart, h⟩ := forall₂_mem_left hparts hm
    cases h with
    | @body _ _ _ _ e => exact ⟨e, hpart⟩
  text := by
    intro s hm
    obtain ⟨piece, hpiece, h⟩ := forall₂_mem_right hparts hm
    cases h with
    | @text run =>
        obtain ⟨hne, hno⟩ := hs.text_mem hpiece
        exact ⟨by simpa using hne, by simpa using hno⟩
  apart := isChain_of_forall₂ hparts hs.apart

theorem Single.wellFormed {n : Token} (h : Single file n e) : e.WellFormed := by
  cases h with
  | text _ hno => exact hno
  | template _ hopen hs hparts => exact areTemplateParts_of_split hs hopen hparts
  | number hv => exact hv.isConstant
  | boolean | identifier => exact trivial

/-! ## Nodes -/

theorem Headed.wellFormed (h : Headed file ts e) : e.WellFormed := by
  cases h with
  | single hs => exact hs.wellFormed
  | lambda _ hnodup _ _ => exact hnodup
  | letIn hb hnodup _ => exact ⟨hb.ne_nil, hnodup⟩
  | application _ _ hne => exact hne
  | @pipeline _ stages _ hlength =>
      cases stages with
      | nil => simp at hlength
      | cons stage stages => exact hlength
  | assertion => exact trivial

end Grammar

namespace Expr

/-- Every node of a tree that is read is well-formed, and so is every type written there. -/
theorem read_wellFormed {settings : Reading.Settings} {context : Context} {source : String}
    {e f : Expr} {above : List Expr} (h : read settings context source = .ok e)
    (ho : Occurs f above e) : f.WellFormed ∧ ∀ t ∈ f.annotations, t.WellFormed := by
  obtain ⟨eof, ts, -, he⟩ := exists_derivation_of_read h
  obtain ⟨us, hf⟩ := he.occurs ho
  obtain ⟨vs, -, hh⟩ := hf.headed
  refine ⟨hh.wellFormed, fun t ht => ?_⟩
  obtain ⟨ws, hws⟩ := hh.annotation ht
  exact Ty.wellFormed_of_annotation hws

/-- A lambda with a union written at it, inside a let. -/
theorem read_wellFormed_lambda :
    let source := "let f = (x: string | number) -> \"a\x7b\x7bx\x7d\x7d\" in f 1"
    ∃ e f above, read ⟨"main", 4, 8⟩ Context.top source = .ok e ∧ Occurs f above e
      ∧ f.annotations = [.union [.string, .number]]
      ∧ f.WellFormed ∧ ∀ t ∈ f.annotations, t.WellFormed := by
  intro source
  have h : read ⟨"main", 4, 8⟩ Context.top source
      = .ok (.letIn ⟨⟨1, 1⟩, "main"⟩
          [⟨"f", none, .lambda ⟨⟨1, 9⟩, "main"⟩ [⟨"x", some (.union [.string, .number]), none⟩]
            (.template ⟨⟨1, 33⟩, "main"⟩ [.text "a", .embed (.identifier ⟨⟨1, 37⟩, "main"⟩ "x")])
            none⟩]
          (.application ⟨⟨1, 45⟩, "main"⟩ (.identifier ⟨⟨1, 45⟩, "main"⟩ "f")
            [.literal ⟨⟨1, 47⟩, "main"⟩ (.int 1)])) := by
    cbv
  exact ⟨_, _, _, h, occurs_of_mem_operands List.mem_cons_self, rfl,
    read_wellFormed h (occurs_of_mem_operands List.mem_cons_self)⟩

end Expr

end TypedPrompt
