/-
# `Proofs.Typing.EqualTrees` — equal trees are checked alike

Two judgements are `Alike` if they come to one answer, or to one fault, and report
diagnostics with the same codes in the same order.  Checking a tree and checking its skeleton
are alike in every scope (`check_skeleton`): the rules carry places into the diagnostics and
nowhere else, and of a constant they see its kind.

So trees that are read and equal are checked alike, as long as a truth value is compared with
a truth value (`check_of_same`).  Without that they need not be, since the constants `1` and
`true` are equal and their types are not (`check_one_true`).
-/
import TypedPrompt.Proofs.Reading.WellFormedTrees
import TypedPrompt.Proofs.Typing.Skeletons

namespace TypedPrompt

/-! ## Judgements that are alike -/

namespace Judgement

variable {α β : Type}

/-- The codes of what is reported, in order. -/
def codes (j : Judgement α) : List Code := j.log.map fun d => d.complaint.code

/-- One answer or fault, and the same codes. -/
structure Alike (j k : Judgement α) : Prop where
  answer : j.answer = k.answer
  codes : j.codes = k.codes

theorem Alike.refl (j : Judgement α) : Alike j j := ⟨rfl, rfl⟩

theorem Alike.symm {j k : Judgement α} (h : Alike j k) : Alike k j := ⟨h.answer.symm, h.codes.symm⟩

theorem Alike.trans {j k l : Judgement α} (hjk : Alike j k) (hkl : Alike k l) : Alike j l :=
  ⟨hjk.answer.trans hkl.answer, hjk.codes.trans hkl.codes⟩

theorem Alike.bind {j k : Judgement α} {f g : α → Judgement β} (h : Alike j k)
    (hf : ∀ a, Alike (f a) (g a)) : Alike (j >>= f) (k >>= g) := by
  obtain ⟨log, answer⟩ := j
  obtain ⟨log', answer'⟩ := k
  obtain ⟨hanswer, hcodes⟩ := h
  obtain rfl : answer = answer' := hanswer
  cases answer with
  | error fault => exact ⟨rfl, hcodes⟩
  | ok a =>
      refine ⟨(hf a).answer, ?_⟩
      show (log ++ (f a).log).map _ = (log' ++ (g a).log).map _
      rw [List.map_append, List.map_append]
      exact congrArg₂ _ hcodes (hf a).codes

theorem alike_report (loc loc' : Location) (x : Complaint) :
    Alike (report loc x) (report loc' x) := ⟨rfl, rfl⟩

theorem alike_require (b : Bool) (loc loc' : Location) (x : Complaint) :
    Alike (require b loc x) (require b loc' x) := by
  cases b with
  | true => exact .refl _
  | false => exact alike_report loc loc' x

end Judgement

namespace Typing

open Judgement TypedPrompt.Expr

/-! ## The rules that look at types only -/

theorem literalType_exemplar (v : Value) : literalType v.exemplar = literalType v := by
  cases v <;> rfl

theorem identifierType_alike (scope : Scope) (loc loc' : Location) (name : String) :
    Alike (identifierType scope loc name) (identifierType scope loc' name) := by
  unfold identifierType
  cases scope.lookup? name with
  | some t => exact .refl _
  | none => exact (alike_report loc loc' _).bind fun _ => .refl _

/-- The arguments are compared by their types, and named by their numbers. -/
theorem checkArguments_skeleton : ∀ (number : Nat) (ps : List (Param Ty)) (es : List Expr)
    (ts : List Ty), Alike (checkArguments number ps (es.zip ts))
      (checkArguments number ps ((skeletonAll es).zip ts))
  | _, [], _, _ => .refl _
  | _, _ :: _, [], _ => .refl _
  | _, _ :: _, _ :: _, [] => .refl _
  | number, _ :: ps, _ :: es, _ :: ts =>
      (alike_require _ _ _ _).bind fun _ => checkArguments_skeleton (number + 1) ps es ts

theorem applicationType_skeleton (loc loc' : Location) (function : Expr) (arguments : List Expr)
    (callee : Ty) (types : List Ty) :
    Alike (applicationType loc function arguments callee types)
      (applicationType loc' function.skeleton (skeletonAll arguments) callee types) := by
  cases callee with
  | function params returns =>
      refine (alike_require _ _ _ _).bind fun _ => ?_
      refine (alike_require _ _ _ _).bind fun _ => ?_
      exact (checkArguments_skeleton 1 params arguments types).bind fun _ => .refl _
  | dynamic => exact .refl _
  | dynamicOf => exact .refl _
  | _ => exact (alike_report _ _ _).bind fun _ => .refl _

theorem stageType_alike (number : Nat) (loc loc' : Location) (flow : Option Ty) (stage : Ty) :
    Alike (stageType number loc flow stage) (stageType number loc' flow stage) := by
  unfold stageType
  split
  · exact .refl _
  · split
    · exact .refl _
    · exact .refl _
    · exact (alike_require _ _ _ _).bind fun _ => .refl _
    · exact (alike_report _ _ _).bind fun _ => .refl _

/-! ## One pass over a tree -/

mutual

/-- Of a tree, checking sees the skeleton. -/
theorem check_skeleton : ∀ (e : Expr) (scope : Scope),
    Alike (check scope e) (check scope e.skeleton)
  | .literal _ v, scope => by
      rw [skeleton, check, check, literalType_exemplar]
      exact .refl _
  | .identifier loc name, scope => by
      rw [skeleton, check, check]
      exact identifierType_alike scope _ _ name
  | .lambda _ params body returns, scope => by
      rw [skeleton, check, check]
      refine (checkParams_skeleton params scope).bind fun ps => ?_
      refine (check_skeleton body (frameOf ps :: scope)).bind fun actual => ?_
      cases returns with
      | none => exact .refl _
      | some declared => exact (alike_require _ _ _ _).bind fun _ => .refl _
  | .application loc function arguments, scope => by
      rw [skeleton, check, check]
      refine (check_skeleton function scope).bind fun callee => ?_
      refine (checkAll_skeleton arguments scope).bind fun types => ?_
      exact applicationType_skeleton _ _ function arguments callee types
  | .letIn _ bindings body, scope => by
      rw [skeleton, check, check]
      refine (checkBindings_skeleton bindings scope []).bind fun frame => ?_
      exact check_skeleton body (frame :: scope)
  | .template _ parts, scope => by
      rw [skeleton, check, check]
      exact (checkParts_skeleton parts scope).bind fun _ => .refl _
  | .pipeline _ [], scope => by
      rw [skeleton, skeletonAll, check, check]
      exact .refl _
  | .pipeline _ (first :: stages), scope => by
      rw [skeleton, skeletonAll, check, check]
      refine (check_skeleton first scope).bind fun input => ?_
      exact (checkStages_skeleton stages scope 2 (some input)).bind fun _ => .refl _
  | .assertion _ subject type, scope => by
      rw [skeleton, check, check]
      refine (check_skeleton subject scope).bind fun actual => ?_
      exact (alike_require _ _ _ _).bind fun _ => .refl _
  | .bare name, scope => by
      rw [skeleton]
      exact .refl _

theorem checkAll_skeleton : ∀ (es : List Expr) (scope : Scope),
    Alike (checkAll scope es) (checkAll scope (skeletonAll es))
  | [], scope => by
      rw [skeletonAll]
      exact .refl _
  | e :: es, scope => by
      rw [skeletonAll, checkAll, checkAll]
      refine (check_skeleton e scope).bind fun _ => ?_
      exact (checkAll_skeleton es scope).bind fun _ => .refl _

theorem checkParams_skeleton : ∀ (ps : List (Parameter Expr)) (scope : Scope),
    Alike (checkParams scope ps) (checkParams scope (skeletonParams ps))
  | [], scope => by
      rw [skeletonParams]
      exact .refl _
  | ⟨_, _, none⟩ :: ps, scope => by
      rw [skeletonParams, checkParams, checkParams]
      exact (checkParams_skeleton ps scope).bind fun _ => .refl _
  | ⟨_, _, some e⟩ :: ps, scope => by
      rw [skeletonParams, checkParams, checkParams]
      refine (check_skeleton e scope).bind fun _ => ?_
      refine (alike_require _ _ _ _).bind fun _ => ?_
      exact (checkParams_skeleton ps scope).bind fun _ => .refl _

theorem checkBindings_skeleton : ∀ (bs : List (Binding Expr)) (scope : Scope) (frame : Frame),
    Alike (checkBindings scope frame bs) (checkBindings scope frame (skeletonBindings bs))
  | [], scope, frame => by
      rw [skeletonBindings]
      exact .refl _
  | ⟨name, type, e⟩ :: bs, scope, frame => by
      rw [skeletonBindings, checkBindings, checkBindings]
      refine (check_skeleton e scope).bind fun actual => ?_
      cases type with
      | none => exact checkBindings_skeleton bs scope _
      | some declared =>
          exact (alike_require _ _ _ _).bind fun _ => checkBindings_skeleton bs scope _

theorem checkParts_skeleton : ∀ (ps : List (Part Expr)) (scope : Scope),
    Alike (checkParts scope ps) (checkParts scope (skeletonParts ps))
  | [], scope => by
      rw [skeletonParts]
      exact .refl _
  | .text _ :: ps, scope => by
      rw [skeletonParts, checkParts, checkParts]
      exact checkParts_skeleton ps scope
  | .embed e :: ps, scope => by
      rw [skeletonParts, checkParts, checkParts]
      exact (check_skeleton e scope).bind fun _ => checkParts_skeleton ps scope

theorem checkStages_skeleton : ∀ (es : List Expr) (scope : Scope) (number : Nat)
    (flow : Option Ty), Alike (checkStages scope number flow es)
      (checkStages scope number flow (skeletonAll es))
  | [], scope, number, flow => by
      rw [skeletonAll]
      exact .refl _
  | e :: es, scope, number, flow => by
      rw [skeletonAll, checkStages, checkStages]
      refine (check_skeleton e scope).bind fun stage => ?_
      refine (stageType_alike number _ _ flow stage).bind fun flow' => ?_
      exact checkStages_skeleton es scope (number + 1) flow'

end

/-! ## Trees that are read -/

theorem hasRule_of_wellFormed {e : Expr} (h : e.WellFormed) : e.hasRule = true := by
  cases e with
  | literal _ v => cases v <;> first | rfl | exact h.elim
  | pipeline _ stages =>
      cases stages with
      | nil => exact absurd h (by simp [WellFormed])
      | cons _ _ => rfl
  | bare _ => exact h.elim
  | _ => rfl

theorem written_of_read {settings : Reading.Settings} {context : Context} {source : String}
    {e : Expr} (h : read settings context source = .ok e) : e.Written := by
  intro f above ho
  obtain ⟨eof, ts, -, he⟩ := exists_derivation_of_read h
  obtain ⟨us, hf⟩ := he.occurs ho
  obtain ⟨vs, -, hh⟩ := hf.headed
  refine ⟨hasRule_of_wellFormed hh.wellFormed, fun t ht => ?_⟩
  obtain ⟨ws, hws⟩ := hh.annotation ht
  exact Ty.written_of_annotation hws

/-- Trees that are read and equal have one type, and what is reported has the same codes in the
same order, in every scope; provided that the constants which are truth values stand at the
same places. -/
theorem check_of_same {settings settings' : Reading.Settings} {context context' : Context}
    {source source' : String} {e f : Expr} (he : read settings context source = .ok e)
    (hf : read settings' context' source' = .ok f) (h : e.same f = true)
    (ht : truths e.walk = truths f.walk) (scope : Scope) :
    ∃ t, (check scope e).answer = .ok t ∧ (check scope f).answer = .ok t
      ∧ (check scope e).codes = (check scope f).codes := by
  have hskeleton : e.skeleton = f.skeleton :=
    (skeleton_eq_of_same e f (written_of_read he) (written_of_read hf) h
      (congrArg (· ++ []) ht)).1
  have halike : Alike (check scope e) (check scope f) := by
    refine (check_skeleton e scope).trans ?_
    rw [hskeleton]
    exact (check_skeleton f scope).symm
  obtain ⟨t, hanswer⟩ := check_answers e scope (written_of_read he).covered
  exact ⟨t, hanswer, halike.answer ▸ hanswer, halike.codes⟩

/-- An application in two layouts, with a number and a truth value on both sides. -/
theorem check_of_same_application :
    ∃ e f, read ⟨"main", 4, 8⟩ Context.top "f 1 true" = .ok e
      ∧ read ⟨"other", 4, 8⟩ Context.top " f 1\n true" = .ok f
      ∧ e.same f = true ∧ truths e.walk = truths f.walk
      ∧ ∀ scope, ∃ t, (check scope e).answer = .ok t ∧ (check scope f).answer = .ok t
        ∧ (check scope e).codes = (check scope f).codes := by
  obtain ⟨he, hf⟩ :
      read ⟨"main", 4, 8⟩ Context.top "f 1 true"
          = .ok (.application ⟨⟨1, 1⟩, "main"⟩ (.identifier ⟨⟨1, 1⟩, "main"⟩ "f")
            [.literal ⟨⟨1, 3⟩, "main"⟩ (.int 1), .literal ⟨⟨1, 5⟩, "main"⟩ (.bool true)])
        ∧ read ⟨"other", 4, 8⟩ Context.top " f 1\n true"
          = .ok (.application ⟨⟨1, 2⟩, "other"⟩ (.identifier ⟨⟨1, 2⟩, "other"⟩ "f")
            [.literal ⟨⟨1, 4⟩, "other"⟩ (.int 1), .literal ⟨⟨2, 2⟩, "other"⟩ (.bool true)]) :=
    ⟨by cbv, by cbv⟩
  refine ⟨_, _, he, hf, ?_, rfl, fun scope => check_of_same he hf ?_ rfl scope⟩
  · simp [same, sameAll, Value.same, Value.samePlain, Value.toNumber?, Number.same]
  · simp [same, sameAll, Value.same, Value.samePlain, Value.toNumber?, Number.same]

/-- The constants `1` and `true` make equal trees of different types. -/
theorem check_one_true :
    ∃ e f, read ⟨"main", 4, 8⟩ Context.top "1" = .ok e
      ∧ read ⟨"main", 4, 8⟩ Context.top "true" = .ok f ∧ e.same f = true
      ∧ ∀ scope, (check scope e).answer = .ok .number ∧ (check scope f).answer = .ok .boolean := by
  have he : read ⟨"main", 4, 8⟩ Context.top "1"
      = .ok (.literal ⟨⟨1, 1⟩, "main"⟩ (.int 1)) := by cbv
  have hf : read ⟨"main", 4, 8⟩ Context.top "true"
      = .ok (.literal ⟨⟨1, 1⟩, "main"⟩ (.bool true)) := by cbv
  refine ⟨_, _, he, hf, ?_, fun scope => ?_⟩
  · simp [same, Value.same, Value.samePlain, Value.toNumber?, Number.same]
  · rw [check, check]
    exact ⟨rfl, rfl⟩

end Typing

end TypedPrompt
