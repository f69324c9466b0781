/-
# `Typing.Check` — the types of expressions

One pass over a tree finds the type of every node and reports whatever does not
fit.  Nothing stops at a mistake: each rule goes on with the type that is most
likely meant, so that one pass shows as much as possible.

* A name that means nothing has type `any`.
* A parameter without annotation is dynamic.  Defaults are checked outside of
  the lambda, and so are the values of a let; neither sees its own names.
* Applying a dynamic function gives a dynamic result.  Applying what is no
  function gives `any`; the arguments are checked all the same.
* In a pipeline, a stage that cannot be called ends the flow: the remaining
  stages are checked, but no longer against one another, and the result is `any`.
* An annotation that does not fit is reported, and believed from then on.
-/
import TypedPrompt.Expr.Basic
import TypedPrompt.Ty.Subtype
import TypedPrompt.Typing.Judgement
import TypedPrompt.Typing.Scope

namespace TypedPrompt.Typing

open Judgement

/-- The type of a constant. -/
def literalType : Value → Judgement Ty
  | .bool _ => return .boolean
  | .null => return .null
  | .str _ => return .string
  | .int _ => return .number
  | .real _ => return .number
  | v => fail (.unsupportedLiteral v)

/-- The type of a name. -/
def identifierType (scope : Scope) (loc : Location) (name : String) : Judgement Ty :=
  match scope.lookup? name with
  | some t => return t
  | none => do
      report loc (.undefined name)
      return .any

/-- Compares arguments with parameters in order, `number` being that of the first one. -/
def checkArguments : Nat → List (Param Ty) → List (Expr × Ty) → Judgement Unit
  | number, p :: ps, (e, actual) :: rest => do
      require (actual.isSubtype p.type) e.loc (.argument number p.name p.type actual)
      checkArguments (number + 1) ps rest
  | _, _, _ => return ()

/-- The type of an application, given those of its parts. -/
def applicationType (loc : Location) (function : Expr) (arguments : List Expr)
    (callee : Ty) (types : List Ty) : Judgement Ty :=
  match callee with
  | .dynamic => return .dynamic
  | .dynamicOf _ => return .dynamic
  | .function params returns => do
      let count := types.length
      let least := Ty.requiredCount params
      require (decide (least ≤ count)) loc (.tooFew least count)
      require (decide (count ≤ params.length)) loc (.tooMany params.length count)
      checkArguments 1 params (arguments.zip types)
      return returns
  | t => do
      report function.loc (.notCallable t)
      return .any

/-- What flows out of a stage of type `stage` when `flow` flows in; nothing once
a stage could not be called. -/
def stageType (number : Nat) (loc : Location) (flow : Option Ty) (stage : Ty) :
    Judgement (Option Ty) :=
  match flow with
  | none => return none
  | some input =>
      match stage with
      | .dynamic => return some .dynamic
      | .dynamicOf _ => return some .dynamic
      | .function (p :: _) returns => do
          require (input.isSubtype p.type) loc (.stageInput number p.type input)
          return some returns
      | t => do
          report loc (.stageNotFunction number t)
          return none

/-- The frame of a lambda's body. -/
def frameOf (params : List (Param Ty)) : Frame :=
  params.foldl (fun frame p => Entries.put frame p.name p.type) []

mutual

/-- The type of an expression, and what is wrong with it. -/
def check (scope : Scope) : Expr → Judgement Ty
  | .literal _ v => literalType v
  | .identifier loc name => identifierType scope loc name
  | .lambda _ params body returns => do
      let ps ← checkParams scope params
      let actual ← check (frameOf ps :: scope) body
      match returns with
      | none => return .function ps actual
      | some declared =>
          require (actual.isSubtype declared) body.loc (.body declared actual)
          return .function ps declared
  | .application loc function arguments => do
      let callee ← check scope function
      let types ← checkAll scope arguments
      applicationType loc function arguments callee types
  | .letIn _ bindings body => do
      let frame ← checkBindings scope [] bindings
      check (frame :: scope) body
  | .template _ parts => do
      checkParts scope parts
      return .string
  | .pipeline _ [] => fail .emptyPipeline
  | .pipeline _ (first :: stages) => do
      let input ← check scope first
      let flow ← checkStages scope 2 (some input) stages
      return flow.getD .any
  | .assertion loc subject type => do
      let actual ← check scope subject
      require (actual.isSubtype type) loc (.assertion type actual)
      return type
  | .bare name => fail (.unknownNode (Expr.bare name).kindName)

/-- The types of expressions, from left to right. -/
def checkAll (scope : Scope) : List Expr → Judgement (List Ty)
  | [] => return []
  | e :: es => do
      let t ← check scope e
      let ts ← checkAll scope es
      return t :: ts

/-- The types of parameters, from left to right. -/
def checkParams (scope : Scope) : List (Parameter Expr) → Judgement (List (Param Ty))
  | [] => return []
  | ⟨name, type, none⟩ :: ps => do
      let rest ← checkParams scope ps
      return ⟨name, type.getD .dynamic, false⟩ :: rest
  | ⟨name, type, some e⟩ :: ps => do
      let declared := type.getD .dynamic
      let actual ← check scope e
      require (actual.isSubtype declared) e.loc (.default name declared actual)
      let rest ← checkParams scope ps
      return ⟨name, declared, true⟩ :: rest

/-- The frame of a let's body, from left to right. -/
def checkBindings (scope : Scope) (frame : Frame) : List (Binding Expr) → Judgement Frame
  | [] => return frame
  | ⟨name, type, e⟩ :: bs => do
      let actual ← check scope e
      match type with
      | none => checkBindings scope (Entries.put frame name actual) bs
      | some declared =>
          require (actual.isSubtype declared) e.loc (.binding name declared actual)
          checkBindings scope (Entries.put frame name declared) bs

/-- Checks what is embedded in a template, from left to right. -/
def checkParts (scope : Scope) : List (Part Expr) → Judgement Unit
  | [] => return ()
  | .text _ :: ps => checkParts scope ps
  | .embed e :: ps => do
      let _ ← check scope e
      checkParts scope ps

/-- What flows out of stages, `number` being that of the first one. -/
def checkStages (scope : Scope) (number : Nat) (flow : Option Ty) :
    List Expr → Judgement (Option Ty)
  | [] => return flow
  | e :: es => do
      let t ← check scope e
      let flow' ← stageType number e.loc flow t
      checkStages scope (number + 1) flow' es

end

end TypedPrompt.Typing
