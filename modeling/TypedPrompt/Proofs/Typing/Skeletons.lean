/-
# `Proofs.Typing.Skeletons` — what checking sees of a tree

The checker looks neither at the places of nodes, except to say where a diagnostic
belongs, nor at constants, except to tell their kinds apart.  The `skeleton` of a tree is
what is left: a tree without places, with one constant of each kind.

Trees that are equal have one skeleton if they have truth values at the same places
(`skeleton_eq_of_same`).  That much is needed, because a truth value is equal to the numbers
0 and 1; and the types in the trees are to be written ones, because only those are
identical if they are equal.
-/
import TypedPrompt.Expr.Equality
import TypedPrompt.Proofs.Ty.Identity
import TypedPrompt.Proofs.Typing.Completion

namespace TypedPrompt

/-! ## Constants -/

namespace Value

/-- A truth value. -/
def isTruth : Value → Bool
  | bool _ => true
  | _ => false

/-- A constant of the same kind; what is no constant of any kind is left as it is. -/
def exemplar : Value → Value
  | bool _ => bool false
  | int _ | real _ => int 0
  | str _ => str ""
  | v => v

/-- Equal constants are of one kind, if both are truth values or neither is. -/
theorem exemplar_eq_of_same {v w : Value} (h : v.same w = true) (htruth : v.isTruth = w.isTruth)
    {loc : Location} (hrule : (Expr.literal loc v).hasRule = true) : v.exemplar = w.exemplar := by
  cases v <;> cases w <;>
    simp_all [same, samePlain, toNumber?, isTruth, exemplar, Expr.hasRule]

end Value

namespace Expr

/-! ## Skeletons -/

mutual

/-- The tree without places, and with one constant of each kind. -/
def skeleton : Expr → Expr
  | literal _ v => literal .unknown v.exemplar
  | identifier _ name => identifier .unknown name
  | lambda _ params body returns =>
      lambda .unknown (skeletonParams params) (skeleton body) returns
  | application _ function arguments =>
      application .unknown (skeleton function) (skeletonAll arguments)
  | letIn _ bindings body => letIn .unknown (skeletonBindings bindings) (skeleton body)
  | template _ parts => template .unknown (skeletonParts parts)
  | pipeline _ stages => pipeline .unknown (skeletonAll stages)
  | assertion _ subject type => assertion .unknown (skeleton subject) type
  | bare name => bare name

def skeletonAll : List Expr → List Expr
  | [] => []
  | e :: es => skeleton e :: skeletonAll es

def skeletonParams : List (Parameter Expr) → List (Parameter Expr)
  | [] => []
  | ⟨name, type, none⟩ :: ps => ⟨name, type, none⟩ :: skeletonParams ps
  | ⟨name, type, some e⟩ :: ps => ⟨name, type, some (skeleton e)⟩ :: skeletonParams ps

def skeletonBindings : List (Binding Expr) → List (Binding Expr)
  | [] => []
  | ⟨name, type, e⟩ :: bs => ⟨name, type, skeleton e⟩ :: skeletonBindings bs

def skeletonParts : List (Part Expr) → List (Part Expr)
  | [] => []
  | .text s :: ps => .text s :: skeletonParts ps
  | .embed e :: ps => .embed (skeleton e) :: skeletonParts ps

end

/-! ## Trees that are written -/

/-- There is a rule for a node, and the types at it are written ones. -/
structure IsWrittenNode (e : Expr) : Prop where
  rule : e.hasRule = true
  types : ∀ t ∈ e.annotations, t.everywhere Ty.isWrittenNode = true

/-- Every node is a written one. -/
def Written (e : Expr) : Prop := ∀ f above, Occurs f above e → f.IsWrittenNode

theorem Written.here {e : Expr} (h : e.Written) : e.IsWrittenNode := h e [] (.here e)

theorem Written.operand {e f : Expr} (h : e.Written) (hf : f ∈ e.operands) : f.Written :=
  fun g above hg => h g (e :: above) (.under hf hg)

theorem Written.covered {e : Expr} (h : e.Written) : e.Covered :=
  fun f above hf => (h f above hf).rule

/-- Parameters with written types and defaults. -/
structure WrittenParams (ps : List (Parameter Expr)) : Prop where
  types : ∀ t ∈ ps.filterMap Parameter.type, t.everywhere Ty.isWrittenNode = true
  defaults : ∀ e ∈ ps.filterMap Parameter.default, e.Written

/-- Bindings with written types and values. -/
structure WrittenBindings (bs : List (Binding Expr)) : Prop where
  types : ∀ t ∈ bs.filterMap Binding.type, t.everywhere Ty.isWrittenNode = true
  values : ∀ e ∈ bs.map Binding.value, e.Written

theorem Written.params {loc : Location} {ps : List (Parameter Expr)} {body : Expr}
    {returns : Option Ty} (h : (lambda loc ps body returns).Written) : WrittenParams ps where
  types t ht := h.here.types t (List.mem_append_left _ ht)
  defaults _ he := h.operand (List.mem_append_left _ he)

theorem Written.body {loc : Location} {ps : List (Parameter Expr)} {body : Expr}
    {returns : Option Ty} (h : (lambda loc ps body returns).Written) : body.Written :=
  h.operand (List.mem_append_right _ (List.mem_singleton.mpr rfl))

theorem Written.returns {loc : Location} {ps : List (Parameter Expr)} {body : Expr}
    {returns : Option Ty} (h : (lambda loc ps body returns).Written) :
    ∀ t ∈ returns, t.everywhere Ty.isWrittenNode = true := fun t ht =>
  h.here.types t (List.mem_append_right _ (Option.mem_toList.mpr ht))

theorem Written.bindings {loc : Location} {bs : List (Binding Expr)} {body : Expr}
    (h : (letIn loc bs body).Written) : WrittenBindings bs where
  types t ht := h.here.types t ht
  values _ he := h.operand (List.mem_append_left _ he)

section Parts

variable {name : String} {written : Option Ty} {d : Option Expr} {e : Expr}
  {ps : List (Parameter Expr)} {bs : List (Binding Expr)}

theorem WrittenParams.type (h : WrittenParams (⟨name, written, d⟩ :: ps)) :
    ∀ t ∈ written, t.everywhere Ty.isWrittenNode = true := fun t ht =>
  h.types t (List.mem_filterMap.mpr ⟨_, List.mem_cons_self, ht⟩)

theorem WrittenParams.default (h : WrittenParams (⟨name, written, some e⟩ :: ps)) :
    e.Written := h.defaults e List.mem_cons_self

theorem WrittenParams.rest {p : Parameter Expr} (h : WrittenParams (p :: ps)) :
    WrittenParams ps where
  types t ht := h.types t (((List.sublist_cons_self p ps).filterMap _).subset ht)
  defaults e he := h.defaults e (((List.sublist_cons_self p ps).filterMap _).subset he)

theorem WrittenBindings.type (h : WrittenBindings (⟨name, written, e⟩ :: bs)) :
    ∀ t ∈ written, t.everywhere Ty.isWrittenNode = true := fun t ht =>
  h.types t (List.mem_filterMap.mpr ⟨_, List.mem_cons_self, ht⟩)

theorem WrittenBindings.value (h : WrittenBindings (⟨name, written, e⟩ :: bs)) :
    e.Written := h.values e List.mem_cons_self

theorem WrittenBindings.rest {b : Binding Expr} (h : WrittenBindings (b :: bs)) :
    WrittenBindings bs where
  types t ht := h.types t (((List.sublist_cons_self b bs).filterMap _).subset ht)
  values e he := h.values e (List.mem_cons_of_mem _ he)

end Parts

theorem type_eq_of_same {t u : Option Ty} (ht : ∀ x ∈ t, x.everywhere Ty.isWrittenNode = true)
    (hu : ∀ x ∈ u, x.everywhere Ty.isWrittenNode = true) (h : sameType t u = true) : t = u := by
  cases t <;> cases u <;> simp only [sameType, Bool.false_eq_true] at h
  · rfl
  · exact congrArg some (Ty.eq_of_same _ _ (ht _ rfl) (hu _ rfl) h)

/-! ## Truth values -/

/-- Whether a constant is a truth value. -/
def truth? : Expr → Option Bool
  | literal _ v => some v.isTruth
  | _ => none

/-- For each constant among the nodes, in order, whether it is a truth value. -/
def truths (nodes : List Expr) : List Bool := nodes.filterMap truth?

@[simp] theorem truths_nil : truths [] = [] := rfl

theorem truths_append (ms ns : List Expr) : truths (ms ++ ns) = truths ms ++ truths ns :=
  List.filterMap_append

theorem truths_cons_of_none {e : Expr} (h : e.truth? = none) (ns : List Expr) :
    truths (e :: ns) = truths ns := List.filterMap_cons_none h

/-! ## Equal trees -/

/-- The nodes under a list of trees have their truth values, and then come others. -/
private theorem truths_walk_append (ms ns : List Expr) (vs : List Bool) :
    truths (ms ++ ns) ++ vs = truths ms ++ (truths ns ++ vs) := by
  rw [truths_append, List.append_assoc]

mutual

/-- Written trees that are equal have one skeleton, if the constants that are truth values
stand at the same places.  The lists go on behind the constants of the trees, so that what
one part takes of them is left over for the next. -/
theorem skeleton_eq_of_same : ∀ (e f : Expr), e.Written → f.Written → same e f = true →
    ∀ {vs ws : List Bool}, truths e.walk ++ vs = truths f.walk ++ ws →
      e.skeleton = f.skeleton ∧ vs = ws
  | .literal _ v, f, he, _, h, vs, ws, ht => by
      cases f <;> simp only [same, Bool.false_eq_true] at h
      rw [walk, walk] at ht
      obtain ⟨htruth, hrest⟩ := List.cons.inj ht
      refine ⟨?_, hrest⟩
      rw [skeleton, skeleton, Value.exemplar_eq_of_same h htruth he.here.rule]
  | .identifier _ _, f, _, _, h, vs, ws, ht => by
      cases f <;> simp only [same, Bool.false_eq_true, beq_iff_eq] at h
      rw [walk, walk] at ht
      refine ⟨?_, ht⟩
      rw [skeleton, skeleton, h]
  | .lambda _ ps body _, f, he, hf, h, vs, ws, ht => by
      cases f <;> simp only [same, Bool.false_eq_true, Bool.and_eq_true] at h
      obtain ⟨⟨hparams, hbody⟩, hreturns⟩ := h
      rw [walk, walk, truths_cons_of_none rfl, truths_cons_of_none rfl, truths_walk_append,
        truths_walk_append] at ht
      obtain ⟨hps, ht⟩ := skeletonParams_eq_of_same ps _ he.params hf.params hparams ht
      obtain ⟨hb, ht⟩ := skeleton_eq_of_same body _ he.body hf.body hbody ht
      refine ⟨?_, ht⟩
      rw [skeleton, skeleton, hps, hb, type_eq_of_same he.returns hf.returns hreturns]
  | .application _ function arguments, f, he, hf, h, vs, ws, ht => by
      cases f <;> simp only [same, Bool.false_eq_true, Bool.and_eq_true] at h
      obtain ⟨hfunction, harguments⟩ := h
      rw [walk, walk, truths_cons_of_none rfl, truths_cons_of_none rfl, truths_walk_append,
        truths_walk_append] at ht
      obtain ⟨hfun, ht⟩ := skeleton_eq_of_same function _ (he.operand List.mem_cons_self)
        (hf.operand List.mem_cons_self) hfunction ht
      obtain ⟨hargs, ht⟩ := skeletonAll_eq_of_same arguments _
        (fun e h => he.operand (List.mem_cons_of_mem _ h))
        (fun e h => hf.operand (List.mem_cons_of_mem _ h)) harguments ht
      refine ⟨?_, ht⟩
      rw [skeleton, skeleton, hfun, hargs]
  | .letIn _ bs body, f, he, hf, h, vs, ws, ht => by
      cases f <;> simp only [same, Bool.false_eq_true, Bool.and_eq_true] at h
      obtain ⟨hbindings, hbody⟩ := h
      rw [walk, walk, truths_cons_of_none rfl, truths_cons_of_none rfl, truths_walk_append,
        truths_walk_append] at ht
      obtain ⟨hbs, ht⟩ := skeletonBindings_eq_of_same bs _ he.bindings hf.bindings hbindings ht
      obtain ⟨hb, ht⟩ := skeleton_eq_of_same body _
        (he.operand (List.mem_append_right _ (List.mem_singleton.mpr rfl)))
        (hf.operand (List.mem_append_right _ (List.mem_singleton.mpr rfl))) hbody ht
      refine ⟨?_, ht⟩
      rw [skeleton, skeleton, hbs, hb]
  | .template _ ps, f, he, hf, h, vs, ws, ht => by
      cases f <;> simp only [same, Bool.false_eq_true] at h
      rw [walk, walk, truths_cons_of_none rfl, truths_cons_of_none rfl] at ht
      obtain ⟨hps, ht⟩ := skeletonParts_eq_of_same ps _ (fun e h => he.operand h)
        (fun e h => hf.operand h) h ht
      refine ⟨?_, ht⟩
      rw [skeleton, skeleton, hps]
  | .pipeline _ stages, f, he, hf, h, vs, ws, ht => by
      cases f <;> simp only [same, Bool.false_eq_true] at h
      case pipeline _ stages' =>
        rw [walk, walk, truths_cons_of_none rfl, truths_cons_of_none rfl] at ht
        obtain ⟨hstages, ht⟩ := skeletonAll_eq_of_same stages stages' (fun e h => he.operand h)
          (fun e h => hf.operand h) h ht
        refine ⟨?_, ht⟩
        rw [skeleton, skeleton, hstages]
  | .assertion _ subject type, f, he, hf, h, vs, ws, ht => by
      cases f <;> simp only [same, Bool.false_eq_true, Bool.and_eq_true] at h
      obtain ⟨hsubject, htype⟩ := h
      rw [walk, walk, truths_cons_of_none rfl, truths_cons_of_none rfl] at ht
      obtain ⟨hs, ht⟩ := skeleton_eq_of_same subject _ (he.operand (List.mem_singleton.mpr rfl))
        (hf.operand (List.mem_singleton.mpr rfl)) hsubject ht
      refine ⟨?_, ht⟩
      rw [skeleton, skeleton, hs, Ty.eq_of_same _ _ (he.here.types _ (List.mem_singleton.mpr rfl))
        (hf.here.types _ (List.mem_singleton.mpr rfl)) htype]
  | .bare _, _, he, _, _, _, _, _ => absurd he.here.rule nofun

theorem skeletonAll_eq_of_same : ∀ (es fs : List Expr), (∀ e ∈ es, e.Written) →
    (∀ f ∈ fs, f.Written) → sameAll es fs = true →
    ∀ {vs ws : List Bool}, truths (walkAll es) ++ vs = truths (walkAll fs) ++ ws →
      skeletonAll es = skeletonAll fs ∧ vs = ws
  | [], fs, _, _, h, vs, ws, ht => by
      obtain rfl : fs = [] := by simpa [sameAll] using h
      exact ⟨rfl, ht⟩
  | e :: es, fs, he, hf, h, vs, ws, ht => by
      cases fs <;> simp only [sameAll, Bool.false_eq_true, Bool.and_eq_true] at h
      obtain ⟨hhead, htail⟩ := h
      obtain ⟨he, hes⟩ := List.forall_mem_cons.mp he
      obtain ⟨hf, hfs⟩ := List.forall_mem_cons.mp hf
      rw [walkAll, walkAll, truths_walk_append, truths_walk_append] at ht
      obtain ⟨hhead, ht⟩ := skeleton_eq_of_same e _ he hf hhead ht
      obtain ⟨htail, ht⟩ := skeletonAll_eq_of_same es _ hes hfs htail ht
      refine ⟨?_, ht⟩
      rw [skeletonAll, skeletonAll, hhead, htail]

theorem skeletonParams_eq_of_same : ∀ (ps qs : List (Parameter Expr)), WrittenParams ps →
    WrittenParams qs → sameParams ps qs = true →
    ∀ {vs ws : List Bool}, truths (walkParams ps) ++ vs = truths (walkParams qs) ++ ws →
      skeletonParams ps = skeletonParams qs ∧ vs = ws
  | [], qs, _, _, h, vs, ws, ht => by
      obtain rfl : qs = [] := by simpa [sameParams] using h
      exact ⟨rfl, ht⟩
  | ⟨_, _, none⟩ :: ps, qs, hp, hq, h, vs, ws, ht => by
      rcases qs with _ | ⟨⟨_, _, _ | _⟩, qs⟩ <;>
        simp only [sameParams, Bool.false_eq_true, Bool.and_eq_true, beq_iff_eq] at h
      obtain ⟨⟨rfl, htype⟩, hrest⟩ := h
      rw [walkParams, walkParams] at ht
      obtain ⟨hps, ht⟩ := skeletonParams_eq_of_same ps _ hp.rest hq.rest hrest ht
      refine ⟨?_, ht⟩
      rw [skeletonParams, skeletonParams, hps, type_eq_of_same hp.type hq.type htype]
  | ⟨_, _, some e⟩ :: ps, qs, hp, hq, h, vs, ws, ht => by
      rcases qs with _ | ⟨⟨_, _, _ | _⟩, qs⟩ <;>
        simp only [sameParams, Bool.false_eq_true, Bool.and_eq_true, beq_iff_eq] at h
      obtain ⟨⟨⟨rfl, htype⟩, hdefault⟩, hrest⟩ := h
      rw [walkParams, walkParams, truths_walk_append, truths_walk_append] at ht
      obtain ⟨he, ht⟩ := skeleton_eq_of_same e _ hp.default hq.default hdefault ht
      obtain ⟨hps, ht⟩ := skeletonParams_eq_of_same ps _ hp.rest hq.rest hrest ht
      refine ⟨?_, ht⟩
      rw [skeletonParams, skeletonParams, he, hps, type_eq_of_same hp.type hq.type htype]

theorem skeletonBindings_eq_of_same : ∀ (bs cs : List (Binding Expr)), WrittenBindings bs →
    WrittenBindings cs → sameBindings bs cs = true →
    ∀ {vs ws : List Bool}, truths (walkBindings bs) ++ vs = truths (walkBindings cs) ++ ws →
      skeletonBindings bs = skeletonBindings cs ∧ vs = ws
  | [], cs, _, _, h, vs, ws, ht => by
      obtain rfl : cs = [] := by simpa [sameBindings] using h
      exact ⟨rfl, ht⟩
  | ⟨_, _, e⟩ :: bs, cs, hb, hc, h, vs, ws, ht => by
      rcases cs with _ | ⟨⟨_, _, _⟩, cs⟩ <;>
        simp only [sameBindings, Bool.false_eq_true, Bool.and_eq_true, beq_iff_eq] at h
      obtain ⟨⟨⟨rfl, htype⟩, hvalue⟩, hrest⟩ := h
      rw [walkBindings, walkBindings, truths_walk_append, truths_walk_append] at ht
      obtain ⟨he, ht⟩ := skeleton_eq_of_same e _ hb.value hc.value hvalue ht
      obtain ⟨hbs, ht⟩ := skeletonBindings_eq_of_same bs _ hb.rest hc.rest hrest ht
      refine ⟨?_, ht⟩
      rw [skeletonBindings, skeletonBindings, he, hbs, type_eq_of_same hb.type hc.type htype]

theorem skeletonParts_eq_of_same : ∀ (ps qs : List (Part Expr)),
    (∀ e ∈ ps.filterMap embedded?, e.Written) → (∀ f ∈ qs.filterMap embedded?, f.Written) →
    sameParts ps qs = true →
    ∀ {vs ws : List Bool}, truths (walkParts ps) ++ vs = truths (walkParts qs) ++ ws →
      skeletonParts ps = skeletonParts qs ∧ vs = ws
  | [], qs, _, _, h, vs, ws, ht => by
      obtain rfl : qs = [] := by simpa [sameParts] using h
      exact ⟨rfl, ht⟩
  | .text _ :: ps, qs, hp, hq, h, vs, ws, ht => by
      rcases qs with _ | ⟨_ | _, qs⟩ <;>
        simp only [sameParts, Bool.false_eq_true, Bool.and_eq_true, beq_iff_eq] at h
      obtain ⟨rfl, hrest⟩ := h
      rw [walkParts, walkParts] at ht
      obtain ⟨hps, ht⟩ := skeletonParts_eq_of_same ps qs hp hq hrest ht
      refine ⟨?_, ht⟩
      rw [skeletonParts, skeletonParts, hps]
  | .embed e :: ps, qs, hp, hq, h, vs, ws, ht => by
      rcases qs with _ | ⟨_ | _, qs⟩ <;>
        simp only [sameParts, Bool.false_eq_true, Bool.and_eq_true] at h
      obtain ⟨hembedded, hrest⟩ := h
      obtain ⟨he, hp⟩ := List.forall_mem_cons.mp hp
      obtain ⟨hf, hq⟩ := List.forall_mem_cons.mp hq
      rw [walkParts, walkParts, truths_walk_append, truths_walk_append] at ht
      obtain ⟨hembed, ht⟩ := skeleton_eq_of_same e _ he hf hembedded ht
      obtain ⟨hps, ht⟩ := skeletonParts_eq_of_same ps _ hp hq hrest ht
      refine ⟨?_, ht⟩
      rw [skeletonParts, skeletonParts, hembed, hps]

end

end Expr

end TypedPrompt
