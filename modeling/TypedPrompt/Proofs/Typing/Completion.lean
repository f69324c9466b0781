/-
# `Proofs.Typing.Completion` — trees that are checked to their end

A judgement `Answers` if it comes to a type, with or without diagnostics on the way.
The checker stops early only at a node for which it has no rule, so it has an answer
for every tree that is `Covered`, in every scope (`check_answers`).  Nothing that is
reported keeps it from going on.
-/
import TypedPrompt.Proofs.Expr.Occurrence
import TypedPrompt.Typing.Check

namespace TypedPrompt

/-! ## Covered trees -/

namespace Expr

/-- Whether there is a rule for a node, whatever its parts are: a constant is no array or
object, a pipeline has a stage. -/
def hasRule : Expr → Bool
  | literal _ (.arr _) | literal _ (.obj _) | pipeline _ [] | bare _ => false
  | _ => true

/-- There is a rule for whatever stands in the tree. -/
def Covered (e : Expr) : Prop := ∀ f above, Occurs f above e → f.hasRule = true

theorem Covered.operand {e f : Expr} (h : e.Covered) (hf : f ∈ e.operands) : f.Covered :=
  fun g above hg => h g (e :: above) (.under hf hg)

theorem Covered.hasRule {e : Expr} (h : e.Covered) : e.hasRule = true := h e [] (.here e)

end Expr

/-! ## Judgements with an answer -/

namespace Judgement

variable {α β : Type}

/-- There is an answer. -/
def Answers (j : Judgement α) : Prop := ∃ a, j.answer = .ok a

theorem answers_bind {j : Judgement α} {f : α → Judgement β} (h : j.Answers)
    (hf : ∀ a, (f a).Answers) : (j >>= f).Answers := by
  obtain ⟨log, answer⟩ := j
  obtain ⟨a, rfl⟩ := h
  exact hf a

theorem answers_require (b : Bool) (loc : Location) (x : Complaint) :
    (require b loc x).Answers := by
  cases b <;> exact ⟨(), rfl⟩

end Judgement

namespace Typing

open Judgement

/-! ## The rules that look at types only -/

theorem checkArguments_answers : ∀ (number : Nat) (ps : List (Param Ty)) (as : List (Expr × Ty)),
    (checkArguments number ps as).Answers
  | _, [], _ => ⟨(), rfl⟩
  | _, _ :: _, [] => ⟨(), rfl⟩
  | number, _ :: ps, _ :: as =>
      answers_bind (answers_require ..) fun _ => checkArguments_answers (number + 1) ps as

theorem applicationType_answers (loc : Location) (function : Expr) (arguments : List Expr)
    (callee : Ty) (types : List Ty) :
    (applicationType loc function arguments callee types).Answers := by
  cases callee with
  | function params returns =>
      refine answers_bind (answers_require ..) fun _ => ?_
      refine answers_bind (answers_require ..) fun _ => ?_
      exact answers_bind (checkArguments_answers 1 params _) fun _ => ⟨_, rfl⟩
  | _ => exact ⟨_, rfl⟩

theorem stageType_answers (number : Nat) (loc : Location) (flow : Option Ty) (stage : Ty) :
    (stageType number loc flow stage).Answers := by
  unfold stageType
  split
  · exact ⟨_, rfl⟩
  · split
    · exact ⟨_, rfl⟩
    · exact ⟨_, rfl⟩
    · exact answers_bind (answers_require ..) fun _ => ⟨_, rfl⟩
    · exact ⟨_, rfl⟩

theorem identifierType_answers (scope : Scope) (loc : Location) (name : String) :
    (identifierType scope loc name).Answers := by
  unfold identifierType
  cases scope.lookup? name <;> exact ⟨_, rfl⟩

/-! ## One pass over a tree -/

mutual

/-- Every covered tree has a type, in every scope. -/
theorem check_answers : ∀ (e : Expr) (scope : Scope), e.Covered → (check scope e).Answers
  | .literal _ v, _, h => by
      rw [check]
      cases v with
      | arr _ => exact absurd h.hasRule nofun
      | obj _ => exact absurd h.hasRule nofun
      | _ => exact ⟨_, rfl⟩
  | .identifier loc name, scope, _ => by
      rw [check]
      exact identifierType_answers scope loc name
  | .lambda _ params body returns, scope, h => by
      rw [check]
      have hparams : ∀ e ∈ params.filterMap Parameter.default, e.Covered := fun e he =>
        h.operand (List.mem_append_left _ he)
      have hbody : body.Covered := h.operand (List.mem_append_right _ (List.mem_singleton.mpr rfl))
      refine answers_bind (checkParams_answers params scope hparams) fun ps => ?_
      refine answers_bind (check_answers body _ hbody) fun _ => ?_
      cases returns with
      | none => exact ⟨_, rfl⟩
      | some declared => exact answers_bind (answers_require ..) fun _ => ⟨_, rfl⟩
  | .application loc function arguments, scope, h => by
      rw [check]
      have harguments : ∀ e ∈ arguments, e.Covered := fun e he =>
        h.operand (List.mem_cons_of_mem _ he)
      refine answers_bind (check_answers function scope (h.operand List.mem_cons_self)) fun _ => ?_
      refine answers_bind (checkAll_answers arguments scope harguments) fun _ => ?_
      exact applicationType_answers loc function arguments _ _
  | .letIn _ bindings body, scope, h => by
      rw [check]
      have hbindings : ∀ e ∈ bindings.map Binding.value, e.Covered := fun e he =>
        h.operand (List.mem_append_left _ he)
      have hbody : body.Covered := h.operand (List.mem_append_right _ (List.mem_singleton.mpr rfl))
      refine answers_bind (checkBindings_answers bindings scope [] hbindings) fun frame => ?_
      exact check_answers body (frame :: scope) hbody
  | .template _ parts, scope, h => by
      rw [check]
      exact answers_bind (checkParts_answers parts scope fun e he => h.operand he) fun _ =>
        ⟨_, rfl⟩
  | .pipeline _ [], _, h => absurd h.hasRule nofun
  | .pipeline _ (first :: stages), scope, h => by
      rw [check]
      have hstages : ∀ e ∈ stages, e.Covered := fun e he => h.operand (List.mem_cons_of_mem _ he)
      refine answers_bind (check_answers first scope (h.operand List.mem_cons_self)) fun input => ?_
      exact answers_bind (checkStages_answers stages scope 2 (some input) hstages) fun _ => ⟨_, rfl⟩
  | .assertion _ subject _, scope, h => by
      rw [check]
      have hsubject : subject.Covered := h.operand (List.mem_singleton.mpr rfl)
      refine answers_bind (check_answers subject scope hsubject) fun _ => ?_
      exact answers_bind (answers_require ..) fun _ => ⟨_, rfl⟩
  | .bare _, _, h => absurd h.hasRule nofun

theorem checkAll_answers : ∀ (es : List Expr) (scope : Scope), (∀ e ∈ es, e.Covered) →
    (checkAll scope es).Answers
  | [], _, _ => by
      rw [checkAll]
      exact ⟨_, rfl⟩
  | e :: es, scope, h => by
      rw [checkAll]
      obtain ⟨he, hes⟩ := List.forall_mem_cons.mp h
      refine answers_bind (check_answers e scope he) fun _ => ?_
      exact answers_bind (checkAll_answers es scope hes) fun _ => ⟨_, rfl⟩

theorem checkParams_answers : ∀ (ps : List (Parameter Expr)) (scope : Scope),
    (∀ e ∈ ps.filterMap Parameter.default, e.Covered) → (checkParams scope ps).Answers
  | [], _, _ => by
      rw [checkParams]
      exact ⟨_, rfl⟩
  | ⟨_, _, none⟩ :: ps, scope, h => by
      rw [checkParams]
      exact answers_bind (checkParams_answers ps scope h) fun _ => ⟨_, rfl⟩
  | ⟨_, _, some e⟩ :: ps, scope, h => by
      rw [checkParams]
      obtain ⟨he, hps⟩ := List.forall_mem_cons.mp h
      refine answers_bind (check_answers e scope he) fun _ => ?_
      refine answers_bind (answers_require ..) fun _ => ?_
      exact answers_bind (checkParams_answers ps scope hps) fun _ => ⟨_, rfl⟩

theorem checkBindings_answers : ∀ (bs : List (Binding Expr)) (scope : Scope) (frame : Frame),
    (∀ e ∈ bs.map Binding.value, e.Covered) → (checkBindings scope frame bs).Answers
  | [], _, _, _ => by
      rw [checkBindings]
      exact ⟨_, rfl⟩
  | ⟨_, type, e⟩ :: bs, scope, _, h => by
      rw [checkBindings]
      obtain ⟨he, hbs⟩ := List.forall_mem_cons.mp h
      refine answers_bind (check_answers e scope he) fun _ => ?_
      cases type with
      | none => exact checkBindings_answers bs scope _ hbs
      | some declared =>
          exact answers_bind (answers_require ..) fun _ => checkBindings_answers bs scope _ hbs

theorem checkParts_answers : ∀ (ps : List (Part Expr)) (scope : Scope),
    (∀ e ∈ ps.filterMap Expr.embedded?, e.Covered) → (checkParts scope ps).Answers
  | [], _, _ => by
      rw [checkParts]
      exact ⟨_, rfl⟩
  | .text _ :: ps, scope, h => by
      rw [checkParts]
      exact checkParts_answers ps scope h
  | .embed e :: ps, scope, h => by
      rw [checkParts]
      obtain ⟨he, hps⟩ := List.forall_mem_cons.mp h
      exact answers_bind (check_answers e scope he) fun _ => checkParts_answers ps scope hps

theorem checkStages_answers : ∀ (es : List Expr) (scope : Scope) (number : Nat)
    (flow : Option Ty), (∀ e ∈ es, e.Covered) → (checkStages scope number flow es).Answers
  | [], _, _, _, _ => by
      rw [checkStages]
      exact ⟨_, rfl⟩
  | e :: es, scope, number, flow, h => by
      rw [checkStages]
      obtain ⟨he, hes⟩ := List.forall_mem_cons.mp h
      refine answers_bind (check_answers e scope he) fun stage => ?_
      refine answers_bind (stageType_answers number e.loc flow stage) fun flow' => ?_
      exact checkStages_answers es scope (number + 1) flow' hes

end

end Typing

end TypedPrompt
