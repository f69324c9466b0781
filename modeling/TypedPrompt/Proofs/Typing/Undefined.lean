/-
# `Proofs.Typing.Undefined` — which names are reported as undefined

A name is undefined at a node if neither the scope of the whole tree binds it nor the
lambdas and lets around that node (`Expr.scopedWalk`).

`check_reports_unbound` says that one pass of the checker reports these identifiers
and no others, each once and in the order of the walk, whatever else it reports.
The checker may stop at a tree that its rules do not cover, and then it has
reported some of them, from the first one on; a tree with a rule for each of its
parts is checked to its end.

`Reports` is what is kept from one part of a judgement to the next: what was
reported so far is the front of what is to be reported, and all of it if there is an
answer.  It passes through `bind`, so the proof has one case for each production.
-/
import Mathlib.Data.List.Basic
import TypedPrompt.Proofs.Expr.Scopes
import TypedPrompt.Proofs.Typing.Completion

namespace TypedPrompt

namespace Typing

/-! ## The names to be reported -/

/-- The complaint about a node, with the names bound at it, if it is an identifier that
neither they nor the scope bind. -/
def undefinedAt? (scope : Scope) : Expr × List String → Option Diagnostic
  | (.identifier loc name, bound) =>
      if scope.binds name || bound.contains name then none else some ⟨.undefined name, loc⟩
  | _ => none

/-- The complaints about the identifiers among some nodes that nothing binds, in order. -/
def undefinedAmong (scope : Scope) (nodes : List (Expr × List String)) : List Diagnostic :=
  nodes.filterMap (undefinedAt? scope)

/-- The diagnostics about undefined names, in order. -/
def undefinedOf (log : List Diagnostic) : List Diagnostic :=
  log.filter fun d => d.complaint.code == .undefinedIdentifier

end Typing

/-! ## Judgements that report the undefined names among some nodes -/

namespace Judgement

open Typing (undefinedOf)

variable {α β : Type} {R : α → Prop} {S : β → Prop} {ds es : List Diagnostic}

/-- Of the undefined names `ds` the judgement reports some, from the first one on; if
it has an answer, then all of them, and `R` holds of the answer. -/
def Reports (ds : List Diagnostic) (R : α → Prop) (j : Judgement α) : Prop :=
  undefinedOf j.log <+: ds ∧ ∀ a, j.answer = .ok a → undefinedOf j.log = ds ∧ R a

theorem reports_pure {a : α} (h : R a) : Reports [] R (Pure.pure a : Judgement α) := by
  refine ⟨List.prefix_rfl, fun b hb => ⟨rfl, ?_⟩⟩
  cases hb
  exact h

theorem reports_fail (fault : TreeFault) : Reports ds R (fail fault : Judgement α) :=
  ⟨List.nil_prefix, fun _ h => nomatch h⟩

theorem reports_mono {Q : α → Prop} {j : Judgement α} (h : Reports ds R j)
    (hq : ∀ a, R a → Q a) : Reports ds Q j :=
  ⟨h.1, fun a ha => ⟨(h.2 a ha).1, hq a (h.2 a ha).2⟩⟩

theorem reports_bind {j : Judgement α} {f : α → Judgement β} (h : Reports ds R j)
    (hf : ∀ a, R a → Reports es S (f a)) : Reports (ds ++ es) S (j >>= f) := by
  obtain ⟨log, answer⟩ := j
  obtain ⟨hlog, hanswer⟩ := h
  cases answer with
  | error fault => exact ⟨hlog.trans (List.prefix_append ds es), fun _ h => nomatch h⟩
  | ok a =>
      obtain ⟨hds, ha⟩ := hanswer a rfl
      obtain ⟨hlog', hanswer'⟩ := hf a ha
      have heq : undefinedOf (log ++ (f a).log) = ds ++ undefinedOf (f a).log := by
        rw [undefinedOf, List.filter_append]
        exact congrArg (· ++ undefinedOf (f a).log) hds
      constructor
      · show undefinedOf (log ++ (f a).log) <+: ds ++ es
        rw [heq]
        exact (List.prefix_append_right_inj ds).mpr hlog'
      · intro b hb
        obtain ⟨hes, hb⟩ := hanswer' b hb
        refine ⟨?_, hb⟩
        show undefinedOf (log ++ (f a).log) = ds ++ es
        rw [heq, hes]

/-- A part that reports no undefined name. -/
theorem reports_bind_nil {j : Judgement α} {f : α → Judgement β} (h : Reports [] R j)
    (hf : ∀ a, R a → Reports es S (f a)) : Reports es S (j >>= f) :=
  reports_bind h hf

/-- The last part. -/
theorem reports_bind_last {j : Judgement α} {f : α → Judgement β} (h : Reports ds R j)
    (hf : ∀ a, R a → Reports [] S (f a)) : Reports ds S (j >>= f) := by
  rw [← List.append_nil ds]
  exact reports_bind h hf

theorem reports_report {loc : Location} {x : Complaint} (h : x.code ≠ .undefinedIdentifier) :
    Reports [] (fun _ => True) (report loc x) := by
  have hlog : undefinedOf (report loc x).log = [] := by
    simp [undefinedOf, report, h]
  exact ⟨by simp [hlog], fun _ _ => ⟨hlog, trivial⟩⟩

theorem reports_require {b : Bool} {loc : Location} {x : Complaint}
    (h : x.code ≠ .undefinedIdentifier) : Reports [] (fun _ => True) (require b loc x) := by
  cases b with
  | true => exact reports_pure trivial
  | false => exact reports_report h

end Judgement

namespace Typing

open Judgement

/-! ## The rules that look at types only -/

theorem checkArguments_reports : ∀ (number : Nat) (ps : List (Param Ty)) (as : List (Expr × Ty)),
    Reports [] (fun _ => True) (checkArguments number ps as)
  | _, [], _ => reports_pure trivial
  | _, _ :: _, [] => reports_pure trivial
  | number, _ :: ps, _ :: as =>
      reports_bind_nil (reports_require nofun) fun _ _ => checkArguments_reports (number + 1) ps as

theorem applicationType_reports (loc : Location) (function : Expr) (arguments : List Expr)
    (callee : Ty) (types : List Ty) :
    Reports [] (fun _ => True) (applicationType loc function arguments callee types) := by
  cases callee with
  | dynamic => exact reports_pure trivial
  | dynamicOf _ => exact reports_pure trivial
  | function params returns =>
      refine reports_bind_nil (reports_require nofun) fun _ _ => ?_
      refine reports_bind_nil (reports_require nofun) fun _ _ => ?_
      refine reports_bind_nil (checkArguments_reports 1 params _) fun _ _ => ?_
      exact reports_pure trivial
  | _ => exact reports_bind_nil (reports_report nofun) fun _ _ => reports_pure trivial

theorem stageType_reports (number : Nat) (loc : Location) (flow : Option Ty) (stage : Ty) :
    Reports [] (fun _ => True) (stageType number loc flow stage) := by
  unfold stageType
  split
  · exact reports_pure trivial
  · split
    · exact reports_pure trivial
    · exact reports_pure trivial
    · refine reports_bind_nil (reports_require ?_) fun _ _ => reports_pure trivial
      simp [Complaint.code]
    · refine reports_bind_nil (reports_report ?_) fun _ _ => reports_pure trivial
      simp [Complaint.code]

theorem literalType_reports (v : Value) : Reports [] (fun _ => True) (literalType v) := by
  cases v with
  | arr _ => exact reports_fail _
  | obj _ => exact reports_fail _
  | _ => exact reports_pure trivial

/-! ## Scopes -/

/-- The scope binds what the outer one binds, and some names more. -/
def Extends (outer : Scope) (bound : List String) (scope : Scope) : Prop :=
  ∀ name, scope.binds name = (outer.binds name || bound.contains name)

theorem binds_cons (frame : Frame) (scope : Scope) (name : String) :
    Scope.binds (frame :: scope) name = (Entries.has frame name || scope.binds name) := by
  unfold Scope.binds Entries.has
  rw [Scope.lookup?]
  cases Entries.find? frame name <;> rfl

/-- The second frame binds what the first one binds, and some names more. -/
def FrameAdds (frame : Frame) (names : List String) (frame' : Frame) : Prop :=
  ∀ name, Entries.has frame' name = (Entries.has frame name || names.contains name)

theorem FrameAdds.refl (frame : Frame) : FrameAdds frame [] frame := by
  intro name
  simp

/-- Names added to a frame in which one more was put. -/
theorem FrameAdds.put {frame frame' : Frame} {key : String} {t : Ty} {names : List String}
    (h : FrameAdds (Entries.put frame key t) names frame') :
    FrameAdds frame (key :: names) frame' := by
  intro name
  rw [h name]
  unfold Entries.has
  rw [Entries.find?_put]
  by_cases hk : key = name
  · simp [hk]
  · simp [hk, Ne.symm hk]

theorem frameAdds_frameOf (params : List (Param Ty)) :
    FrameAdds [] (params.map Param.name) (frameOf params) := by
  have from_ : ∀ frame : Frame, FrameAdds frame (params.map Param.name)
      (params.foldl (fun frame p => Entries.put frame p.name p.type) frame) := by
    induction params with
    | nil => exact FrameAdds.refl
    | cons p ps ih => exact fun frame => (ih _).put
  exact from_ []

/-- A frame with some names makes these names bound. -/
theorem Extends.cons {outer scope : Scope} {bound names : List String} {frame : Frame}
    (h : Extends outer bound scope) (hf : FrameAdds [] names frame) :
    Extends outer (names ++ bound) (frame :: scope) := by
  intro name
  have hempty : Entries.has ([] : Frame) name = false := rfl
  rw [binds_cons, hf name, hempty, h name, List.contains_append, Bool.false_or]
  cases names.contains name <;> simp

theorem undefinedAmong_append (scope : Scope) (ms ns : List (Expr × List String)) :
    undefinedAmong scope (ms ++ ns) = undefinedAmong scope ms ++ undefinedAmong scope ns :=
  List.filterMap_append

theorem identifierType_reports {outer scope : Scope} {bound : List String}
    (h : Extends outer bound scope) (loc : Location) (name : String) :
    Reports (undefinedAmong outer [(.identifier loc name, bound)]) (fun _ => True)
      (identifierType scope loc name) := by
  have hds : undefinedAmong outer [(.identifier loc name, bound)]
      = if scope.binds name then [] else [⟨.undefined name, loc⟩] := by
    simp only [undefinedAmong, List.filterMap_cons, List.filterMap_nil, undefinedAt?, h name]
    cases outer.binds name || bound.contains name <;> rfl
  rw [hds]
  unfold identifierType Scope.binds
  cases scope.lookup? name with
  | some t => exact reports_pure trivial
  | none => exact ⟨List.prefix_rfl, fun _ _ => ⟨rfl, trivial⟩⟩

/-! ## One pass over a tree -/

mutual

/-- A part of a tree, in a scope that has the names bound around it. -/
theorem check_reports {outer : Scope} : ∀ (e : Expr) {bound : List String} {scope : Scope},
    Extends outer bound scope →
      Reports (undefinedAmong outer (e.scopedWalk bound)) (fun _ => True) (check scope e)
  | .literal _ v, _, _, _ => by
      rw [check]
      exact literalType_reports v
  | .identifier loc name, _, _, h => by
      rw [check]
      exact identifierType_reports h loc name
  | .lambda _ params body returns, bound, scope, h => by
      rw [check]
      show Reports (undefinedAmong outer (Expr.scopedParams bound params ++ _)) _ _
      rw [undefinedAmong_append]
      refine reports_bind (checkParams_reports params h) fun ps hps => ?_
      have hbody : Extends outer (params.map Parameter.name ++ bound) (frameOf ps :: scope) := by
        rw [← hps]
        exact h.cons (frameAdds_frameOf ps)
      refine reports_bind_last (check_reports body hbody) fun actual _ => ?_
      cases returns with
      | none => exact reports_pure trivial
      | some declared =>
          exact reports_bind_nil (reports_require nofun) fun _ _ => reports_pure trivial
  | .application loc function arguments, bound, _, h => by
      rw [check]
      show Reports (undefinedAmong outer (function.scopedWalk bound ++ _)) _ _
      rw [undefinedAmong_append]
      refine reports_bind (check_reports function h) fun callee _ => ?_
      refine reports_bind_last (checkAll_reports arguments h) fun types _ => ?_
      exact applicationType_reports loc function arguments callee types
  | .letIn _ bindings body, bound, scope, h => by
      rw [check]
      show Reports (undefinedAmong outer (Expr.scopedBindings bound bindings ++ _)) _ _
      rw [undefinedAmong_append]
      refine reports_bind (checkBindings_reports bindings [] h) fun frame hframe => ?_
      exact check_reports body (h.cons hframe)
  | .template _ parts, _, _, h => by
      rw [check]
      exact reports_bind_last (checkParts_reports parts h) fun _ _ => reports_pure trivial
  | .pipeline _ [], _, _, _ => by
      rw [check]
      exact reports_fail _
  | .pipeline _ (first :: stages), bound, _, h => by
      rw [check]
      show Reports (undefinedAmong outer (first.scopedWalk bound ++ _)) _ _
      rw [undefinedAmong_append]
      refine reports_bind (check_reports first h) fun input _ => ?_
      exact reports_bind_last (checkStages_reports stages 2 (some input) h) fun _ _ =>
        reports_pure trivial
  | .assertion _ subject _, _, _, h => by
      rw [check]
      refine reports_bind_last (check_reports subject h) fun _ _ => ?_
      exact reports_bind_nil (reports_require nofun) fun _ _ => reports_pure trivial
  | .bare _, _, _, _ => by
      rw [check]
      exact reports_fail _

theorem checkAll_reports {outer : Scope} : ∀ (es : List Expr) {bound : List String}
    {scope : Scope}, Extends outer bound scope →
      Reports (undefinedAmong outer (Expr.scopedAll bound es)) (fun _ => True) (checkAll scope es)
  | [], _, _, _ => by
      rw [checkAll]
      exact reports_pure trivial
  | e :: es, _, _, h => by
      rw [checkAll, Expr.scopedAll, undefinedAmong_append]
      refine reports_bind (check_reports e h) fun _ _ => ?_
      exact reports_bind_last (checkAll_reports es h) fun _ _ => reports_pure trivial

theorem checkParams_reports {outer : Scope} : ∀ (ps : List (Parameter Expr))
    {bound : List String} {scope : Scope}, Extends outer bound scope →
      Reports (undefinedAmong outer (Expr.scopedParams bound ps))
        (fun qs => qs.map Param.name = ps.map Parameter.name) (checkParams scope ps)
  | [], _, _, _ => by
      rw [checkParams]
      exact reports_pure rfl
  | ⟨_, _, none⟩ :: ps, _, _, h => by
      rw [checkParams, Expr.scopedParams]
      exact reports_bind_last (checkParams_reports ps h) fun _ hqs => reports_pure (by simp [hqs])
  | ⟨_, _, some e⟩ :: ps, _, _, h => by
      rw [checkParams, Expr.scopedParams, undefinedAmong_append]
      refine reports_bind (check_reports e h) fun _ _ => ?_
      refine reports_bind_nil (reports_require nofun) fun _ _ => ?_
      exact reports_bind_last (checkParams_reports ps h) fun _ hqs => reports_pure (by simp [hqs])

theorem checkBindings_reports {outer : Scope} : ∀ (bs : List (Binding Expr)) (frame : Frame)
    {bound : List String} {scope : Scope}, Extends outer bound scope →
      Reports (undefinedAmong outer (Expr.scopedBindings bound bs))
        (FrameAdds frame (bs.map Binding.name)) (checkBindings scope frame bs)
  | [], _, _, _, _ => by
      rw [checkBindings]
      exact reports_pure (FrameAdds.refl _)
  | ⟨key, type, e⟩ :: bs, frame, _, _, h => by
      rw [checkBindings, Expr.scopedBindings, undefinedAmong_append]
      refine reports_bind (check_reports e h) fun actual _ => ?_
      have hrest : ∀ t : Ty, Reports (undefinedAmong outer (Expr.scopedBindings _ bs))
          (FrameAdds frame (key :: bs.map Binding.name))
          (checkBindings _ (Entries.put frame key t) bs) :=
        fun t => reports_mono (checkBindings_reports bs _ h) fun _ => FrameAdds.put
      cases type with
      | none => exact hrest actual
      | some declared => exact reports_bind_nil (reports_require nofun) fun _ _ => hrest declared

theorem checkParts_reports {outer : Scope} : ∀ (ps : List (Part Expr)) {bound : List String}
    {scope : Scope}, Extends outer bound scope →
      Reports (undefinedAmong outer (Expr.scopedParts bound ps)) (fun _ => True)
        (checkParts scope ps)
  | [], _, _, _ => by
      rw [checkParts]
      exact reports_pure trivial
  | .text _ :: ps, _, _, h => by
      rw [checkParts, Expr.scopedParts]
      exact checkParts_reports ps h
  | .embed e :: ps, _, _, h => by
      rw [checkParts, Expr.scopedParts, undefinedAmong_append]
      exact reports_bind (check_reports e h) fun _ _ => checkParts_reports ps h

theorem checkStages_reports {outer : Scope} : ∀ (es : List Expr) (number : Nat)
    (flow : Option Ty) {bound : List String} {scope : Scope}, Extends outer bound scope →
      Reports (undefinedAmong outer (Expr.scopedAll bound es)) (fun _ => True)
        (checkStages scope number flow es)
  | [], _, _, _, _, _ => by
      rw [checkStages]
      exact reports_pure trivial
  | e :: es, number, flow, _, _, h => by
      rw [checkStages, Expr.scopedAll, undefinedAmong_append]
      refine reports_bind (check_reports e h) fun stage _ => ?_
      refine reports_bind_nil (stageType_reports number e.loc flow stage) fun flow' _ => ?_
      exact checkStages_reports es (number + 1) flow' h

end

/-! ## What one pass reports -/

end Typing

end TypedPrompt
