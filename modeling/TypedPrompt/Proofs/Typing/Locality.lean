/-
# `Proofs.Typing.Locality` — a scope matters at the free names only

Two scopes that give the free names of a tree the same meaning, or none, give the whole
tree the same type, the same diagnostics in the same order and the same fault
(`check_eq_of_agree`), however their frames are nested and whatever else they bind.

Inside of lambdas and lets the two scopes get the same frames, since what is put into a
frame was found in scopes that agree so far.  So the induction carries two facts about
the scopes that have been reached: they agree on the names bound around the node, and
they agree on the free names below it.  A frame keeps both, and adds its own names to
the first.
-/
import TypedPrompt.Proofs.Typing.Passing
import TypedPrompt.Proofs.Typing.Undefined

namespace TypedPrompt

namespace Typing

open Judgement TypedPrompt.Expr

variable {scope scope' : Scope}

/-! ## Scopes that agree -/

/-- The scopes give each of the names one meaning, or none. -/
def AgreeOn (names : List String) (scope scope' : Scope) : Prop :=
  ∀ name ∈ names, scope.lookup? name = scope'.lookup? name

/-- A frame leaves them in agreement. -/
theorem AgreeOn.frame {names : List String} (h : AgreeOn names scope scope') (frame : Frame) :
    AgreeOn names (frame :: scope) (frame :: scope') := by
  intro name hname
  rw [Scope.lookup?, Scope.lookup?, h name hname]

/-- They agree on what a frame binds, too. -/
theorem AgreeOn.bind {bound names : List String} (h : AgreeOn bound scope scope') {frame : Frame}
    (hf : FrameAdds [] names frame) :
    AgreeOn (names ++ bound) (frame :: scope) (frame :: scope') := by
  intro name hname
  rcases List.mem_append.mp hname with hnew | hold
  · have hhas : Entries.has frame name = true := by
      rw [hf name, List.contains_iff_mem.mpr hnew, Bool.or_true]
    obtain ⟨t, ht⟩ := Option.isSome_iff_exists.mp hhas
    rw [Scope.lookup?, Scope.lookup?, ht]
  · exact h.frame frame name hold

/-- The scopes agree at some nodes with the names bound around them: on these names, and
on those that are free among the nodes. -/
structure AgreeAt (bound : List String) (nodes : List (Expr × List String))
    (scope scope' : Scope) : Prop where
  bound : AgreeOn bound scope scope'
  free : AgreeOn (freeAmong nodes) scope scope'

namespace AgreeAt

variable {bound names : List String} {ms ns : List (Expr × List String)} {n : Expr × List String}

theorem left (h : AgreeAt bound (ms ++ ns) scope scope') : AgreeAt bound ms scope scope' :=
  ⟨h.bound, fun name hname =>
    h.free name (freeAmong_append ms ns ▸ List.mem_append_left _ hname)⟩

theorem right (h : AgreeAt bound (ms ++ ns) scope scope') : AgreeAt bound ns scope scope' :=
  ⟨h.bound, fun name hname =>
    h.free name (freeAmong_append ms ns ▸ List.mem_append_right _ hname)⟩

theorem below (h : AgreeAt bound (n :: ns) scope scope') : AgreeAt bound ns scope scope' :=
  right (show AgreeAt bound ([n] ++ ns) scope scope' from h)

/-- Below a frame that binds some names. -/
theorem inside (h : AgreeAt bound ns scope scope') {frame : Frame}
    (hf : FrameAdds [] names frame) :
    AgreeAt (names ++ bound) ns (frame :: scope) (frame :: scope') :=
  ⟨h.bound.bind hf, h.free.frame frame⟩

theorem identifier {loc : Location} {name : String}
    (h : AgreeAt bound [(.identifier loc name, bound)] scope scope') :
    scope.lookup? name = scope'.lookup? name := by
  by_cases hname : name ∈ bound
  · exact h.bound name hname
  · refine h.free name ?_
    simp [freeAmong, freeName?, hname]

end AgreeAt

/-! ## What is put into a frame -/

/-- A scope has the names that it binds itself. -/
theorem extends_self (scope : Scope) : Extends scope [] scope := fun _ => (Bool.or_false _).symm

theorem frameAdds_of_checkParams {params : List (Parameter Expr)} {ps : List (Param Ty)}
    (h : (checkParams scope params).answer = .ok ps) :
    FrameAdds [] (params.map Parameter.name) (frameOf ps) := by
  have hnames : ps.map Param.name = params.map Parameter.name :=
    ((checkParams_reports params (extends_self scope)).2 ps h).2
  exact hnames ▸ frameAdds_frameOf ps

theorem frameAdds_of_checkBindings {bindings : List (Binding Expr)} {frame : Frame}
    (h : (checkBindings scope [] bindings).answer = .ok frame) :
    FrameAdds [] (bindings.map Binding.name) frame :=
  ((checkBindings_reports bindings [] (extends_self scope)).2 frame h).2

/-! ## One pass over a tree in both scopes -/

mutual

theorem check_agrees : ∀ (e : Expr) {bound : List String} {scope scope' : Scope},
    AgreeAt bound (e.scopedWalk bound) scope scope' → check scope e = check scope' e
  | .literal _ _, _, _, _, _ => by rw [check, check]
  | .identifier loc name, _, _, _, h => by
      rw [check, check, identifierType, identifierType, h.identifier]
  | .lambda _ params body _, _, scope, scope', h => by
      rw [check, check, checkParams_agrees params h.below.left]
      refine bind_congr_of_answer fun ps hps => ?_
      rw [check_agrees body (h.below.right.inside (frameAdds_of_checkParams hps))]
  | .application _ function arguments, _, _, _, h => by
      rw [check, check, check_agrees function h.below.left, checkAll_agrees arguments h.below.right]
  | .letIn _ bindings body, _, _, _, h => by
      rw [check, check, checkBindings_agrees bindings [] h.below.left]
      refine bind_congr_of_answer fun frame hframe => ?_
      rw [check_agrees body (h.below.right.inside (frameAdds_of_checkBindings hframe))]
  | .template _ parts, _, _, _, h => by
      rw [check, check, checkParts_agrees parts h.below]
  | .pipeline _ [], _, _, _, _ => by rw [check, check]
  | .pipeline _ (first :: stages), _, _, _, h => by
      rw [check, check, check_agrees first h.below.left]
      refine bind_congr_of_answer fun input _ => ?_
      rw [checkStages_agrees stages 2 (some input) h.below.right]
  | .assertion _ subject _, _, _, _, h => by
      rw [check, check, check_agrees subject h.below]
  | .bare _, _, _, _, _ => by rw [check, check]

theorem checkAll_agrees : ∀ (es : List Expr) {bound : List String} {scope scope' : Scope},
    AgreeAt bound (scopedAll bound es) scope scope' → checkAll scope es = checkAll scope' es
  | [], _, _, _, _ => by rw [checkAll, checkAll]
  | e :: es, _, _, _, h => by
      rw [checkAll, checkAll, check_agrees e h.left, checkAll_agrees es h.right]

theorem checkParams_agrees : ∀ (ps : List (Parameter Expr)) {bound : List String}
    {scope scope' : Scope}, AgreeAt bound (scopedParams bound ps) scope scope' →
      checkParams scope ps = checkParams scope' ps
  | [], _, _, _, _ => by rw [checkParams, checkParams]
  | ⟨_, _, none⟩ :: ps, _, _, _, h => by
      rw [checkParams, checkParams, checkParams_agrees ps h]
  | ⟨_, _, some e⟩ :: ps, _, _, _, h => by
      rw [checkParams, checkParams, check_agrees e h.left, checkParams_agrees ps h.right]

theorem checkBindings_agrees : ∀ (bs : List (Binding Expr)) (frame : Frame)
    {bound : List String} {scope scope' : Scope},
      AgreeAt bound (scopedBindings bound bs) scope scope' →
      checkBindings scope frame bs = checkBindings scope' frame bs
  | [], _, _, _, _, _ => by rw [checkBindings, checkBindings]
  | ⟨_, type, e⟩ :: bs, frame, _, _, _, h => by
      rw [checkBindings, checkBindings, check_agrees e h.left]
      refine bind_congr_of_answer fun actual _ => ?_
      cases type with
      | none => exact checkBindings_agrees bs _ h.right
      | some declared =>
          exact bind_congr_of_answer fun _ _ => checkBindings_agrees bs _ h.right

theorem checkParts_agrees : ∀ (ps : List (Part Expr)) {bound : List String}
    {scope scope' : Scope}, AgreeAt bound (scopedParts bound ps) scope scope' →
      checkParts scope ps = checkParts scope' ps
  | [], _, _, _, _ => by rw [checkParts, checkParts]
  | .text _ :: ps, _, _, _, h => by
      rw [checkParts, checkParts]
      exact checkParts_agrees ps h
  | .embed e :: ps, _, _, _, h => by
      rw [checkParts, checkParts, check_agrees e h.left, checkParts_agrees ps h.right]

theorem checkStages_agrees : ∀ (es : List Expr) (number : Nat) (flow : Option Ty)
    {bound : List String} {scope scope' : Scope}, AgreeAt bound (scopedAll bound es) scope scope' →
      checkStages scope number flow es = checkStages scope' number flow es
  | [], _, _, _, _, _, _ => by rw [checkStages, checkStages]
  | e :: es, number, flow, _, _, _, h => by
      rw [checkStages, checkStages, check_agrees e h.left]
      refine bind_congr_of_answer fun stage _ => bind_congr_of_answer fun flow' _ => ?_
      exact checkStages_agrees es (number + 1) flow' h.right

end

/-- Scopes in which the free names of a tree mean the same give the tree one judgement. -/
theorem check_eq_of_agree {e : Expr}
    (h : ∀ name ∈ e.freeNames, scope.lookup? name = scope'.lookup? name) :
    check scope e = check scope' e :=
  check_agrees e ⟨fun _ hname => absurd hname List.not_mem_nil, h⟩

/-- `let f = f 1 in (x = x) -> f x` takes its first `f` and the `x` of the default from
outside.  The one scope is a single frame; in the other an inner `f` hides another one.
Neither binds `x`. -/
theorem check_eq_of_agree_shadowed :
    let step : Ty := .function [⟨"n", .number, false⟩] .dynamic
    let call (argument : Expr) : Expr :=
      .application .unknown (.identifier .unknown "f") [argument]
    let tree : Expr := .letIn .unknown [⟨"f", none, call (.literal .unknown (.int 1))⟩]
      (.lambda .unknown [⟨"x", none, some (.identifier .unknown "x")⟩]
        (call (.identifier .unknown "x")) none)
    let single : Scope := [[("f", step), ("g", .string)]]
    let nested : Scope := [[("f", step)], [], [("f", .string), ("h", .number)]]
    (∀ name ∈ tree.freeNames, single.lookup? name = nested.lookup? name) ∧
      tree.freeNames = ["f", "x"] ∧ check single tree = check nested tree := by
  intro step call tree single nested
  have hfree : tree.freeNames = ["f", "x"] := by cbv
  have h : ∀ name ∈ tree.freeNames, single.lookup? name = nested.lookup? name := by
    rw [hfree, List.forall_mem_cons, List.forall_mem_singleton]
    exact ⟨rfl, rfl⟩
  exact ⟨h, hfree, check_eq_of_agree h⟩

end Typing

end TypedPrompt
