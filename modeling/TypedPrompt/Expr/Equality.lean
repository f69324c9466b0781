/-
# `Expr.Equality` — trees of one structure

Two trees are equal when they agree in everything but the places of their nodes.
Constants compare as data and types attribute by attribute, so the constants
`1`, `1.0` and `true` make equal trees.
-/
import TypedPrompt.Expr.Basic

namespace TypedPrompt.Expr

/-- Equality of optional types. -/
def sameType : Option Ty → Option Ty → Bool
  | some t, some u => t.same u
  | none, none => true
  | _, _ => false

mutual

/-- Equality of trees, places apart. -/
def same : Expr → Expr → Bool
  | literal _ v, f => match f with
      | literal _ w => v.same w
      | _ => false
  | identifier _ x, f => match f with
      | identifier _ y => x == y
      | _ => false
  | lambda _ ps body returns, f => match f with
      | lambda _ qs body' returns' =>
          sameParams ps qs && same body body' && sameType returns returns'
      | _ => false
  | application _ g as, f => match f with
      | application _ g' as' => same g g' && sameAll as as'
      | _ => false
  | letIn _ bs body, f => match f with
      | letIn _ bs' body' => sameBindings bs bs' && same body body'
      | _ => false
  | template _ ps, f => match f with
      | template _ qs => sameParts ps qs
      | _ => false
  | pipeline _ ss, f => match f with
      | pipeline _ ss' => sameAll ss ss'
      | _ => false
  | assertion _ e t, f => match f with
      | assertion _ e' t' => same e e' && t.same t'
      | _ => false
  | bare x, f => match f with
      | bare y => x == y
      | _ => false

/-- Equality of lists of trees. -/
def sameAll : List Expr → List Expr → Bool
  | [], fs => fs.isEmpty
  | e :: es, fs => match fs with
      | f :: fs => same e f && sameAll es fs
      | [] => false

/-- Equality of parameters. -/
def sameParams : List (Parameter Expr) → List (Parameter Expr) → Bool
  | [], qs => qs.isEmpty
  | ⟨x, t, none⟩ :: ps, qs => match qs with
      | ⟨y, u, none⟩ :: qs => x == y && sameType t u && sameParams ps qs
      | _ => false
  | ⟨x, t, some e⟩ :: ps, qs => match qs with
      | ⟨y, u, some f⟩ :: qs => x == y && sameType t u && same e f && sameParams ps qs
      | _ => false

/-- Equality of bindings. -/
def sameBindings : List (Binding Expr) → List (Binding Expr) → Bool
  | [], cs => cs.isEmpty
  | ⟨x, t, e⟩ :: bs, cs => match cs with
      | ⟨y, u, f⟩ :: cs => x == y && sameType t u && same e f && sameBindings bs cs
      | [] => false

/-- Equality of the parts of templates. -/
def sameParts : List (Part Expr) → List (Part Expr) → Bool
  | [], qs => qs.isEmpty
  | .text s :: ps, qs => match qs with
      | .text s' :: qs => s == s' && sameParts ps qs
      | _ => false
  | .embed e :: ps, qs => match qs with
      | .embed f :: qs => same e f && sameParts ps qs
      | _ => false

end

end TypedPrompt.Expr
