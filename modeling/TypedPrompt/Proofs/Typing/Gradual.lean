/-
# `Proofs.Typing.Gradual` — taking annotations away does no harm

`Erases e f`: the tree `f` is `e` without the annotations of some parameters of
lambdas, anywhere in the tree.  If `e` is checked without a diagnostic then so is
`f`, in the same scope, and the type of `f` is that of `e` blurred
(`check_erases`).  A tree that the rules do not cover has the same fault before
and after.

The two runs of the checker go side by side.  `Refines` compares their judgements
and passes through `bind`, so the proof has one case for each production, and in
each of them the parts of a judgement correspond in order.  What is needed of the
types is that the subtype test is monotone under blurring, and that a blurred
function is a function with as many parameters or dynamic, which may be applied
and piped into freely.
-/
import TypedPrompt.Proofs.Ty.Precision
import TypedPrompt.Proofs.Typing.Completion

namespace TypedPrompt

/-! ## Trees with annotations taken away -/

/-- A parameter keeps its annotation or loses it; its default changes by `R`. -/
inductive Parameter.Erases {ε : Type} (R : ε → ε → Prop) : Parameter ε → Parameter ε → Prop
  | keep {d d' : Option ε} (name : String) (type : Option Ty) (h : Option.Rel R d d') :
      Parameter.Erases R ⟨name, type, d⟩ ⟨name, type, d'⟩
  | drop {d d' : Option ε} (name : String) (type : Option Ty) (h : Option.Rel R d d') :
      Parameter.Erases R ⟨name, type, d⟩ ⟨name, none, d'⟩

/-- Two bindings that differ in their values only, and there by `R`. -/
inductive Binding.Rel {ε : Type} (R : ε → ε → Prop) : Binding ε → Binding ε → Prop
  | mk {e f : ε} (name : String) (type : Option Ty) (h : R e f) :
      Binding.Rel R ⟨name, type, e⟩ ⟨name, type, f⟩

/-- Two parts of a template that differ in what they embed only, and there by `R`. -/
inductive Part.Rel {ε : Type} (R : ε → ε → Prop) : Part ε → Part ε → Prop
  | text (s : String) : Part.Rel R (.text s) (.text s)
  | embed {e f : ε} (h : R e f) : Part.Rel R (.embed e) (.embed f)

/-- The second tree is the first without the annotations of some parameters of lambdas. -/
inductive Expr.Erases : Expr → Expr → Prop
  | literal (loc : Location) (v : Value) : Erases (.literal loc v) (.literal loc v)
  | identifier (loc : Location) (name : String) :
      Erases (.identifier loc name) (.identifier loc name)
  | lambda {ps qs : List (Parameter Expr)} {b c : Expr} (loc : Location) (returns : Option Ty)
      (hp : List.Forall₂ (Parameter.Erases Erases) ps qs) (hb : Erases b c) :
      Erases (.lambda loc ps b returns) (.lambda loc qs c returns)
  | application {f g : Expr} {as bs : List Expr} (loc : Location) (hf : Erases f g)
      (ha : List.Forall₂ Erases as bs) : Erases (.application loc f as) (.application loc g bs)
  | letIn {bs cs : List (Binding Expr)} {b c : Expr} (loc : Location)
      (hs : List.Forall₂ (Binding.Rel Erases) bs cs) (hb : Erases b c) :
      Erases (.letIn loc bs b) (.letIn loc cs c)
  | template {ps qs : List (Part Expr)} (loc : Location)
      (h : List.Forall₂ (Part.Rel Erases) ps qs) : Erases (.template loc ps) (.template loc qs)
  | pipeline {es fs : List Expr} (loc : Location) (h : List.Forall₂ Erases es fs) :
      Erases (.pipeline loc es) (.pipeline loc fs)
  | assertion {e f : Expr} (loc : Location) (type : Ty) (h : Erases e f) :
      Erases (.assertion loc e type) (.assertion loc f type)
  | bare (name : String) : Erases (.bare name) (.bare name)

/-! ## Judgements side by side -/

namespace Judgement

variable {α β γ δ : Type} {R : α → β → Prop} {S : γ → δ → Prop}

/-- Answers that correspond by `R`, or one and the same fault. -/
inductive Agree (R : α → β → Prop) : Except TreeFault α → Except TreeFault β → Prop
  | ok {a : α} {b : β} (h : R a b) : Agree R (.ok a) (.ok b)
  | fault (f : TreeFault) : Agree R (.error f) (.error f)

/-- If the first judgement has no diagnostic then neither has the second, and the
answers agree. -/
def Refines (R : α → β → Prop) (j : Judgement α) (k : Judgement β) : Prop :=
  j.log = [] → k.log = [] ∧ Agree R j.answer k.answer

theorem refines_pure {a : α} {b : β} (h : R a b) :
    Refines R (Pure.pure a : Judgement α) (Pure.pure b : Judgement β) :=
  fun _ => ⟨rfl, .ok h⟩

theorem refines_fail (f : TreeFault) : Refines R (fail f) (fail f) :=
  fun _ => ⟨rfl, .fault f⟩

theorem refines_bind {j : Judgement α} {k : Judgement β} {f : α → Judgement γ}
    {g : β → Judgement δ} (h : Refines R j k) (hf : ∀ a b, R a b → Refines S (f a) (g b)) :
    Refines S (j >>= f) (k >>= g) := by
  obtain ⟨log, answer⟩ := j
  obtain ⟨log', answer'⟩ := k
  intro hlog
  cases answer with
  | error fault =>
      obtain ⟨hk, ha⟩ := h hlog
      cases ha with
      | fault => exact ⟨hk, .fault fault⟩
  | ok a =>
      obtain ⟨hj, hfa⟩ := List.append_eq_nil_iff.mp (show log ++ (f a).log = [] from hlog)
      obtain ⟨hk, ha⟩ := h hj
      cases ha with
      | ok hab =>
          obtain ⟨hg, hans⟩ := hf a _ hab hfa
          exact ⟨List.append_eq_nil_iff.mpr ⟨hk, hg⟩, hans⟩

/-- A condition that still holds is still not reported. -/
theorem refines_require {b c : Bool} (h : b = true → c = true) (loc loc' : Location)
    (x y : Complaint) : Refines Eq (require b loc x) (require c loc' y) := by
  intro hlog
  cases b with
  | true => simp [require, h rfl, pure, Agree.ok]
  | false => simp [require, report] at hlog

/-- A judgement that begins with a report has a diagnostic. -/
theorem refines_report (loc : Location) (x : Complaint) (f : Unit → Judgement α)
    (k : Judgement β) : Refines R (report loc x >>= f) k := by
  intro hlog
  exact absurd (show [(⟨x, loc⟩ : Diagnostic)] ++ (f ()).log = [] from hlog) (by simp)

/-- A part of the first run that the second run leaves out, if it has an answer. -/
theorem refines_skip {j : Judgement α} {f : α → Judgement γ} {k : Judgement δ}
    (hj : j.Answers) (h : ∀ a, Refines S (f a) k) : Refines S (j >>= f) k := by
  obtain ⟨log, answer⟩ := j
  obtain ⟨a, rfl⟩ := hj
  intro hlog
  exact h a (List.append_eq_nil_iff.mp (show log ++ (f a).log = [] from hlog)).2

end Judgement

/-! ## Scopes side by side -/

open Ty (Blurs)

/-- Two entries of one name, the type of the second blurred. -/
def EntryBlurs (a b : String × Ty) : Prop := a.1 = b.1 ∧ Blurs a.2 b.2

/-- Two frames with the same names in the same order, the types of the second blurred. -/
abbrev FrameBlurs : Frame → Frame → Prop := List.Forall₂ EntryBlurs

/-- Two scopes that correspond frame by frame. -/
abbrev ScopeBlurs : Scope → Scope → Prop := List.Forall₂ FrameBlurs

theorem ScopeBlurs.refl (scope : Scope) : ScopeBlurs scope scope :=
  List.forall₂_same.mpr fun _ _ => List.forall₂_same.mpr fun _ _ => ⟨rfl, Blurs.refl _⟩

theorem find?_blurs {frame frame' : Frame} (h : FrameBlurs frame frame') (name : String) :
    Option.Rel Blurs (Entries.find? frame name) (Entries.find? frame' name) := by
  induction h with
  | nil => exact .none
  | @cons a b _ _ hr _ ih =>
      obtain ⟨key, t⟩ := a
      obtain ⟨key', u⟩ := b
      obtain ⟨hk, hb⟩ := hr
      obtain rfl : key = key' := hk
      by_cases hn : key = name
      · simpa [Entries.find?, hn] using Option.Rel.some hb
      · simpa [Entries.find?, hn] using ih

theorem lookup?_blurs {scope scope' : Scope} (h : ScopeBlurs scope scope') (name : String) :
    Option.Rel Blurs (scope.lookup? name) (scope'.lookup? name) := by
  induction h with
  | nil => exact .none
  | @cons frame frame' _ _ hf _ ih =>
      have hr := find?_blurs hf name
      rw [Scope.lookup?, Scope.lookup?]
      cases h : Entries.find? frame name <;> cases h' : Entries.find? frame' name <;>
        rw [h, h'] at hr
      · exact ih
      · exact nomatch hr
      · exact nomatch hr
      · exact hr

theorem put_blurs {frame frame' : Frame} (h : FrameBlurs frame frame') (name : String)
    {t u : Ty} (hb : Blurs t u) :
    FrameBlurs (Entries.put frame name t) (Entries.put frame' name u) := by
  induction h with
  | nil => exact .cons ⟨rfl, hb⟩ .nil
  | @cons a b as bs hr hs ih =>
      obtain ⟨key, t'⟩ := a
      obtain ⟨key', u'⟩ := b
      obtain ⟨hk, hb'⟩ := hr
      obtain rfl : key = key' := hk
      rw [Entries.put, Entries.put]
      split
      · exact .cons ⟨rfl, hb⟩ hs
      · exact .cons ⟨rfl, hb'⟩ ih

/-- A parameter keeps its name; the type that it counts as having may blur. -/
theorem Parameter.Erases.declared {R : Expr → Expr → Prop} {name : String} {type : Option Ty}
    {d : Option Expr} {q : Parameter Expr} (h : Parameter.Erases R ⟨name, type, d⟩ q) :
    ∃ type' d', q = ⟨name, type', d'⟩ ∧ Blurs (type.getD .dynamic) (type'.getD .dynamic) ∧
      Option.Rel R d d' := by
  cases h with
  | keep _ _ hd => exact ⟨type, _, rfl, Blurs.refl _, hd⟩
  | drop _ _ hd => exact ⟨none, _, rfl, .whole _, hd⟩

/-! ## The two runs -/

namespace Typing

open Judgement

theorem frameOf_blurs {ps qs : List (Param Ty)} (h : List.Forall₂ (Param.Rel Blurs) ps qs) :
    FrameBlurs (frameOf ps) (frameOf qs) := by
  have from_ : ∀ {frame frame' : Frame}, FrameBlurs frame frame' →
      FrameBlurs (ps.foldl (fun frame p => Entries.put frame p.name p.type) frame)
        (qs.foldl (fun frame p => Entries.put frame p.name p.type) frame') := by
    induction h with
    | nil => exact id
    | cons hr _ ih =>
        obtain ⟨name, isOptional, hb⟩ := hr
        exact fun hf => ih (put_blurs hf name hb)
  exact from_ .nil

theorem refines_of_eq {α : Type} {R : α → α → Prop} (hR : ∀ a, R a a) (j : Judgement α) :
    Refines R j j := by
  intro hlog
  refine ⟨hlog, ?_⟩
  cases j.answer with
  | ok a => exact .ok (hR a)
  | error f => exact .fault f

theorem identifierType_refines {scope scope' : Scope} (h : ScopeBlurs scope scope')
    (loc : Location) (name : String) :
    Refines Blurs (identifierType scope loc name) (identifierType scope' loc name) := by
  have hr := lookup?_blurs h name
  unfold identifierType
  cases hl : scope.lookup? name <;> cases hl' : scope'.lookup? name <;> rw [hl, hl'] at hr
  · exact refines_report _ _ _ _
  · exact nomatch hr
  · exact nomatch hr
  · cases hr with
    | some hb => exact refines_pure hb

theorem checkArguments_refines {ps qs : List (Param Ty)}
    (hp : List.Forall₂ (Param.Rel Blurs) ps qs) :
    ∀ (number : Nat) {as bs : List (Expr × Ty)},
      List.Forall₂ (fun a b => Blurs a.2 b.2) as bs →
      Refines Eq (checkArguments number ps as) (checkArguments number qs bs) := by
  induction hp with
  | nil => exact fun _ _ _ _ => refines_pure rfl
  | cons hr _ ih =>
      obtain ⟨name, isOptional, hb⟩ := hr
      intro number as bs ha
      cases ha with
      | nil => exact refines_pure rfl
      | cons hab ha =>
          refine refines_bind (refines_require ?_ _ _ _ _) fun _ _ _ => ih (number + 1) ha
          exact Ty.isSubtype_of_blurs hab hb

theorem forall₂_zip_types {as bs : List Expr} {ts us : List Ty} (hlen : as.length = bs.length)
    (ht : List.Forall₂ Blurs ts us) :
    List.Forall₂ (fun a b => Blurs a.2 b.2) (as.zip ts) (bs.zip us) := by
  induction as generalizing bs ts us with
  | nil =>
      obtain rfl := List.length_eq_zero_iff.mp hlen.symm
      exact .nil
  | cons a as ih =>
      cases bs with
      | nil => exact absurd hlen (by simp)
      | cons b bs =>
          cases ht with
          | nil => exact .nil
          | cons h ht => exact .cons h (ih (by simpa using hlen) ht)

/-- Applying a blurred function to blurred arguments. -/
theorem applicationType_refines (loc : Location) {f g : Expr} {as bs : List Expr}
    (hlen : as.length = bs.length) {callee callee' : Ty} (hc : Blurs callee callee')
    {ts us : List Ty} (ht : List.Forall₂ Blurs ts us) :
    Refines Blurs (applicationType loc f as callee ts) (applicationType loc g bs callee' us) := by
  cases hc with
  | whole =>
      cases callee with
      | dynamic => exact refines_pure (.whole _)
      | dynamicOf => exact refines_pure (.whole _)
      | function =>
          refine refines_skip (answers_require _ _ _) fun _ => ?_
          refine refines_skip (answers_require _ _ _) fun _ => ?_
          exact refines_skip (checkArguments_answers _ _ _) fun _ => refines_pure (.whole _)
      | _ => exact refines_report _ _ _ _
  | dynamicOf => exact refines_pure (.whole _)
  | function hp hr =>
      have hcount : ts.length = us.length := ht.length_eq
      refine refines_bind (refines_require ?_ _ _ _ _) fun _ _ _ => ?_
      · rw [← hcount, ← Ty.requiredCount_rel hp]
        exact id
      refine refines_bind (refines_require ?_ _ _ _ _) fun _ _ _ => ?_
      · rw [← hcount, ← hp.length_eq]
        exact id
      have hargs := checkArguments_refines hp 1 (forall₂_zip_types hlen ht)
      exact refines_bind hargs fun _ _ _ => refines_pure hr
  | _ => exact refines_report _ _ _ _

/-- A stage of a pipeline with a blurred type, into which a blurred type flows. -/
theorem stageType_refines (number : Nat) (loc loc' : Location) {flow flow' : Option Ty}
    (hf : Option.Rel Blurs flow flow') {stage stage' : Ty} (hs : Blurs stage stage') :
    Refines (Option.Rel Blurs) (stageType number loc flow stage)
      (stageType number loc' flow' stage') := by
  cases hf with
  | none => exact refines_pure .none
  | some hb =>
      cases hs with
      | whole =>
          cases stage with
          | dynamic => exact refines_pure (.some (.whole _))
          | dynamicOf => exact refines_pure (.some (.whole _))
          | function ps r =>
              cases ps with
              | nil => exact refines_report _ _ _ _
              | cons =>
                  exact refines_skip (answers_require _ _ _) fun _ =>
                    refines_pure (.some (.whole _))
          | _ => exact refines_report _ _ _ _
      | dynamicOf => exact refines_pure (.some (.whole _))
      | function hp hr =>
          cases hp with
          | nil => exact refines_report _ _ _ _
          | cons hq =>
              obtain ⟨name, isOptional, hq⟩ := hq
              refine refines_bind (refines_require ?_ _ _ _ _) fun _ _ _ => refines_pure (.some hr)
              exact Ty.isSubtype_of_blurs hb hq
      | _ => exact refines_report _ _ _ _

mutual

theorem check_refines : ∀ {e f : Expr}, e.Erases f → ∀ {scope scope' : Scope},
    ScopeBlurs scope scope' → Refines Blurs (check scope e) (check scope' f)
  | .literal _ v, _, h, _, _, _ => by
      cases h
      rw [check, check]
      exact refines_of_eq Blurs.refl _
  | .identifier _ _, _, h, _, _, hs => by
      cases h
      rw [check, check]
      exact identifierType_refines hs _ _
  | .lambda _ ps body returns, _, h, scope, scope', hs => by
      cases h with
      | lambda _ _ hp hb =>
          rw [check, check]
          refine refines_bind (checkParams_refines hp hs) fun _ _ hps => ?_
          refine refines_bind (check_refines hb (.cons (frameOf_blurs hps) hs)) fun _ _ hr => ?_
          cases returns with
          | none => exact refines_pure (.function hps hr)
          | some declared =>
              refine refines_bind (refines_require ?_ _ _ _ _) fun _ _ _ => ?_
              · exact Ty.isSubtype_of_blurs hr (Blurs.refl declared)
              · exact refines_pure (.function hps (Blurs.refl declared))
  | .application _ _ _, _, h, _, _, hs => by
      cases h with
      | application _ hf ha =>
          rw [check, check]
          refine refines_bind (check_refines hf hs) fun _ _ hc => ?_
          refine refines_bind (checkAll_refines ha hs) fun _ _ ht => ?_
          exact applicationType_refines _ ha.length_eq hc ht
  | .letIn _ _ _, _, h, _, _, hs => by
      cases h with
      | letIn _ hbs hb =>
          rw [check, check]
          refine refines_bind (checkBindings_refines hbs hs .nil) fun _ _ hfr => ?_
          exact check_refines hb (.cons hfr hs)
  | .template _ _, _, h, _, _, hs => by
      cases h with
      | template _ hp =>
          rw [check, check]
          exact refines_bind (checkParts_refines hp hs) fun _ _ _ => refines_pure (Blurs.refl _)
  | .pipeline _ [], _, h, _, _, _ => by
      cases h with
      | pipeline _ hp =>
          cases hp
          rw [check, check]
          exact refines_fail _
  | .pipeline _ (_ :: _), _, h, _, _, hs => by
      cases h with
      | pipeline _ hp =>
          cases hp with
          | cons hfirst hstages =>
              rw [check, check]
              refine refines_bind (check_refines hfirst hs) fun _ _ hi => ?_
              refine refines_bind (checkStages_refines hstages hs 2 (.some hi)) fun _ _ hflow => ?_
              cases hflow with
              | none => exact refines_pure .any
              | some hb => exact refines_pure hb
  | .assertion _ _ type, _, h, _, _, hs => by
      cases h with
      | assertion _ _ he =>
          rw [check, check]
          refine refines_bind (check_refines he hs) fun _ _ hb => ?_
          refine refines_bind (refines_require ?_ _ _ _ _) fun _ _ _ =>
            refines_pure (Blurs.refl type)
          exact Ty.isSubtype_of_blurs hb (Blurs.refl type)
  | .bare _, _, h, _, _, _ => by
      cases h
      rw [check, check]
      exact refines_fail _

theorem checkAll_refines : ∀ {es fs : List Expr}, List.Forall₂ Expr.Erases es fs →
    ∀ {scope scope' : Scope}, ScopeBlurs scope scope' →
      Refines (List.Forall₂ Blurs) (checkAll scope es) (checkAll scope' fs)
  | [], _, h, _, _, _ => by
      cases h
      rw [checkAll, checkAll]
      exact refines_pure .nil
  | _ :: _, _, h, _, _, hs => by
      cases h with
      | cons he hes =>
          rw [checkAll, checkAll]
          refine refines_bind (check_refines he hs) fun _ _ ht => ?_
          exact refines_bind (checkAll_refines hes hs) fun _ _ hts => refines_pure (.cons ht hts)

theorem checkParams_refines : ∀ {ps qs : List (Parameter Expr)},
    List.Forall₂ (Parameter.Erases Expr.Erases) ps qs →
    ∀ {scope scope' : Scope}, ScopeBlurs scope scope' →
      Refines (List.Forall₂ (Param.Rel Blurs)) (checkParams scope ps) (checkParams scope' qs)
  | [], _, h, _, _, _ => by
      cases h
      rw [checkParams, checkParams]
      exact refines_pure .nil
  | ⟨name, _, none⟩ :: _, _, h, _, _, hs => by
      cases h with
      | cons hp hps =>
          obtain ⟨type', d', rfl, hb, hd⟩ := hp.declared
          cases hd
          rw [checkParams, checkParams]
          exact refines_bind (checkParams_refines hps hs) fun _ _ hrest =>
            refines_pure (.cons (.mk name false hb) hrest)
  | ⟨name, _, some _⟩ :: _, _, h, _, _, hs => by
      cases h with
      | cons hp hps =>
          obtain ⟨type', d', rfl, hb, hd⟩ := hp.declared
          cases hd with
          | some he =>
              rw [checkParams, checkParams]
              refine refines_bind (check_refines he hs) fun _ _ ha => ?_
              refine refines_bind (refines_require ?_ _ _ _ _) fun _ _ _ => ?_
              · exact Ty.isSubtype_of_blurs ha hb
              · exact refines_bind (checkParams_refines hps hs) fun _ _ hrest =>
                  refines_pure (.cons (.mk name true hb) hrest)

theorem checkBindings_refines : ∀ {bs cs : List (Binding Expr)},
    List.Forall₂ (Binding.Rel Expr.Erases) bs cs →
    ∀ {scope scope' : Scope}, ScopeBlurs scope scope' →
    ∀ {frame frame' : Frame}, FrameBlurs frame frame' →
      Refines FrameBlurs (checkBindings scope frame bs) (checkBindings scope' frame' cs)
  | [], _, h, _, _, _, _, _, hf => by
      cases h
      rw [checkBindings, checkBindings]
      exact refines_pure hf
  | ⟨name, type, _⟩ :: _, _, h, _, _, hs, _, _, hf => by
      cases h with
      | cons hb hbs =>
          cases hb with
          | mk _ _ he =>
              rw [checkBindings, checkBindings]
              refine refines_bind (check_refines he hs) fun _ _ ht => ?_
              cases type with
              | none => exact checkBindings_refines hbs hs (put_blurs hf name ht)
              | some declared =>
                  refine refines_bind (refines_require ?_ _ _ _ _) fun _ _ _ => ?_
                  · exact Ty.isSubtype_of_blurs ht (Blurs.refl declared)
                  · exact checkBindings_refines hbs hs (put_blurs hf name (Blurs.refl declared))

theorem checkParts_refines : ∀ {ps qs : List (Part Expr)},
    List.Forall₂ (Part.Rel Expr.Erases) ps qs →
    ∀ {scope scope' : Scope}, ScopeBlurs scope scope' →
      Refines Eq (checkParts scope ps) (checkParts scope' qs)
  | [], _, h, _, _, _ => by
      cases h
      rw [checkParts, checkParts]
      exact refines_pure rfl
  | .text _ :: _, _, h, _, _, hs => by
      cases h with
      | cons hp hps =>
          cases hp
          rw [checkParts, checkParts]
          exact checkParts_refines hps hs
  | .embed _ :: _, _, h, _, _, hs => by
      cases h with
      | cons hp hps =>
          cases hp with
          | embed he =>
              rw [checkParts, checkParts]
              exact refines_bind (check_refines he hs) fun _ _ _ => checkParts_refines hps hs

theorem checkStages_refines : ∀ {es fs : List Expr}, List.Forall₂ Expr.Erases es fs →
    ∀ {scope scope' : Scope}, ScopeBlurs scope scope' →
    ∀ (number : Nat) {flow flow' : Option Ty}, Option.Rel Blurs flow flow' →
      Refines (Option.Rel Blurs) (checkStages scope number flow es)
        (checkStages scope' number flow' fs)
  | [], _, h, _, _, _, _, _, _, hflow => by
      cases h
      rw [checkStages, checkStages]
      exact refines_pure hflow
  | _ :: _, _, h, _, _, hs, number, _, _, hflow => by
      cases h with
      | cons he hes =>
          rw [checkStages, checkStages]
          refine refines_bind (check_refines he hs) fun _ _ ht => ?_
          refine refines_bind (stageType_refines number _ _ hflow ht) fun _ _ hflow' => ?_
          exact checkStages_refines hes hs (number + 1) hflow'

end

/-- Taking annotations off parameters brings up no diagnostic where there was none,
and the type that is found is the same but for `dynamic` in the place of some of its
components. -/
theorem check_erases {e f : Expr} (he : e.Erases f) (scope : Scope)
    (h : (check scope e).log = []) :
    (check scope f).log = [] ∧ Agree Blurs (check scope e).answer (check scope f).answer :=
  check_refines he (ScopeBlurs.refl scope) h

/-- `((x: number, f) -> f x) 1 g` with the annotation of `x` taken off, `g` taking
a number to a text. -/
theorem check_erases_callback :
    let scope : Scope := [[("g", .function [⟨"n", .number, false⟩] .string)]]
    let tree (type : Option Ty) : Expr :=
      .application .unknown
        (.lambda .unknown [⟨"x", type, none⟩, ⟨"f", none, none⟩]
          (.application .unknown (.identifier .unknown "f") [.identifier .unknown "x"]) none)
        [.literal .unknown (.int 1), .identifier .unknown "g"]
    (tree (some .number)).Erases (tree none) ∧ (check scope (tree (some .number))).log = [] ∧
      (check scope (tree none)).log = [] ∧
      Agree Blurs (check scope (tree (some .number))).answer (check scope (tree none)).answer := by
  intro scope tree
  have he : (tree (some .number)).Erases (tree none) :=
    .application _ (.lambda _ _ (.cons (.drop "x" _ .none) (.cons (.keep "f" _ .none) .nil))
      (.application _ (.identifier _ _) (.cons (.identifier _ _) .nil)))
      (.cons (.literal _ _) (.cons (.identifier _ _) .nil))
  have h : (check scope (tree (some .number))).log = [] := by cbv
  exact ⟨he, h, check_erases he scope h⟩

end Typing

end TypedPrompt
