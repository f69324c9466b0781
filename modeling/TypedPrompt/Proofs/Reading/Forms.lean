/-
# `Proofs.Reading.Forms` — the parts of a tree and their tokens

Parentheses leave no trace in a tree.  `Headed` is a derivation with those around the
whole taken off, so that its constructors are the forms of trees, and the tokens of
each part stand among those of the whole (`Headed.operands`).  The one exception is
a template: what is embedded in it was read from the text of a token, as a source of
its own.
-/
import TypedPrompt.Proofs.Expr.Occurrence
import TypedPrompt.Proofs.Reading.Grammar

namespace TypedPrompt

namespace Grammar

/-! ## Items -/

section Forms

variable {α : Type} {R : Phrase α} {ts : List Token} {as : List α} {a : α}

theorem Separated.mem {sep : Kind} (h : Separated sep R ts as) (ha : a ∈ as) :
    ∃ us, us ⊆ ts ∧ R us a := by
  induction h with
  | @last ts b hb =>
      obtain rfl := List.mem_singleton.mp ha
      exact ⟨ts, List.Subset.refl ts, hb⟩
  | @next ts us s b bs hb _ _ ih =>
      rcases List.mem_cons.mp ha with rfl | ha
      · exact ⟨ts, List.subset_append_left .., hb⟩
      · obtain ⟨vs, hvs, h⟩ := ih ha
        exact ⟨vs, fun v hv => List.mem_append_right ts (List.mem_cons_of_mem s (hvs hv)), h⟩

theorem Listed.mem {sep : Kind} (h : Listed sep R ts as) (ha : a ∈ as) :
    ∃ us, us ⊆ ts ∧ R us a := by
  cases h with
  | none => cases ha
  | some h => exact h.mem ha

theorem Repeated.mem (h : Repeated R ts as) (ha : a ∈ as) : ∃ us, us ⊆ ts ∧ R us a := by
  induction h with
  | nil => cases ha
  | @cons ts us b bs hb _ ih =>
      rcases List.mem_cons.mp ha with rfl | ha
      · exact ⟨ts, List.subset_append_left .., hb⟩
      · obtain ⟨vs, hvs, h⟩ := ih ha
        exact ⟨vs, fun v hv => List.mem_append_right ts (hvs hv), h⟩

theorem Preceded.mem {mark : Symbol} (h : Preceded mark R ts (.some a)) :
    ∃ us, us ⊆ ts ∧ R us a := by
  cases h with
  | some _ ha => exact ⟨_, List.subset_cons_self .., ha⟩

end Forms

/-! ## Forms of trees -/

variable (file : String)

/-- A derivation of a tree that is not one in parentheses. -/
inductive Headed : Phrase Expr where
  | single {t : Token} {e : Expr} : Single file t e → Headed [t] e
  | lambda {l r arrow : Token} {ts us vs : List Token} {params : List (Parameter Expr)}
      {returns : Option Ty} {body : Expr} :
      Listed (.symbol .comma) (LambdaParameter file) ts params →
      (params.map Parameter.name).Nodup → Preceded .colon Annotation us returns →
      Expression file vs body →
      Headed (l :: (ts ++ r :: (us ++ arrow :: vs))) (.lambda (placeIn file l) params body returns)
  | letIn {l i : Token} {ts us : List Token} {bindings : List (Binding Expr)} {body : Expr} :
      Separated (.symbol .comma) (LetBinding file) ts bindings →
      (bindings.map Binding.name).Nodup → Expression file us body →
      Headed (l :: (ts ++ i :: us)) (.letIn (placeIn file l) bindings body)
  | application {ts us : List Token} {function : Expr} {arguments : List Expr} :
      Primary file ts function → Repeated (Primary file) us arguments → arguments ≠ [] →
      Headed (ts ++ us) (.application function.loc function arguments)
  | pipeline {ts : List Token} {stages : List Expr} :
      Separated (.symbol .pipe) (Application file) ts stages → 2 ≤ stages.length →
      Headed ts (pipelineOf stages)
  | assertion {ts us : List Token} {mark : Token} {e : Expr} {t : Ty} :
      Pipeline file ts e → Annotation us t → Headed (ts ++ mark :: us) (.assertion e.loc e t)

variable {file} {ts : List Token} {e f : Expr}

/-- Each expression directly inside was read from some of the tokens. -/
def OperandsFrom (file : String) (ts : List Token) (e : Expr) : Prop :=
  e.operands ≠ [] ∧ ∀ f ∈ e.operands, ∃ us, us ⊆ ts ∧ Expression file us f

theorem OperandsFrom.mono {us : List Token} (h : OperandsFrom file us e) (hs : us ⊆ ts) :
    OperandsFrom file ts e := by
  refine ⟨h.1, fun f hf => ?_⟩
  obtain ⟨vs, hvs, hf⟩ := h.2 f hf
  exact ⟨vs, List.Subset.trans hvs hs, hf⟩

theorem expression_of_primary (h : Primary file ts e) : Expression file ts e :=
  .pipeline (.stages (.single (.alone h)))

theorem operandsFrom_lambda {l r arrow : Token} {us vs : List Token}
    {params : List (Parameter Expr)} {loc : Location} {returns : Option Ty} {body : Expr}
    (hp : Listed (.symbol .comma) (LambdaParameter file) ts params)
    (hb : Expression file vs body) :
    OperandsFrom file (l :: (ts ++ r :: (us ++ arrow :: vs)))
      (.lambda loc params body returns) := by
  refine ⟨by simp [Expr.operands], fun f hf => ?_⟩
  rcases List.mem_append.mp hf with hf | hf
  · obtain ⟨p, hp', hd⟩ := List.mem_filterMap.mp hf
    obtain ⟨ws, hws, ⟨_, _, hdefault⟩⟩ := hp.mem hp'
    obtain rfl : _ = some f := hd
    obtain ⟨xs, hxs, hf⟩ := hdefault.mem
    refine ⟨xs, fun x hx => ?_, hf⟩
    have : x ∈ ts := hws (List.mem_cons_of_mem _ (List.mem_append_right _ (hxs hx)))
    simp [this]
  · obtain rfl := List.mem_singleton.mp hf
    exact ⟨vs, fun x hx => by simp [hx], hb⟩

theorem operandsFrom_letIn {l i : Token} {us : List Token} {bindings : List (Binding Expr)}
    {loc : Location} {body : Expr}
    (hb : Separated (.symbol .comma) (LetBinding file) ts bindings)
    (he : Expression file us body) :
    OperandsFrom file (l :: (ts ++ i :: us)) (.letIn loc bindings body) := by
  refine ⟨by simp [Expr.operands], fun f hf => ?_⟩
  rcases List.mem_append.mp hf with hf | hf
  · obtain ⟨b, hb', rfl⟩ := List.mem_map.mp hf
    obtain ⟨ws, hws, ⟨_, _, _, hvalue⟩⟩ := hb.mem hb'
    refine ⟨_, fun x hx => ?_, hvalue⟩
    have : x ∈ ts := hws (by simp [hx])
    simp [this]
  · obtain rfl := List.mem_singleton.mp hf
    exact ⟨us, fun x hx => by simp [hx], he⟩

theorem operandsFrom_application {us : List Token} {loc : Location} {arguments : List Expr}
    (hf : Primary file ts f) (ha : Repeated (Primary file) us arguments) :
    OperandsFrom file (ts ++ us) (.application loc f arguments) := by
  refine ⟨by simp [Expr.operands], fun g hg => ?_⟩
  rcases List.mem_cons.mp hg with rfl | hg
  · exact ⟨ts, List.subset_append_left .., expression_of_primary hf⟩
  · obtain ⟨vs, hvs, hg⟩ := ha.mem hg
    exact ⟨vs, fun v hv => List.mem_append_right ts (hvs hv), expression_of_primary hg⟩

theorem operandsFrom_pipeline {stages : List Expr}
    (hs : Separated (.symbol .pipe) (Application file) ts stages) (hlength : 2 ≤ stages.length) :
    OperandsFrom file ts (pipelineOf stages) := by
  cases stages with
  | nil => simp at hlength
  | cons stage stages =>
      refine ⟨by simp [pipelineOf, Expr.operands], fun g hg => ?_⟩
      obtain ⟨us, hus, hg⟩ := hs.mem hg
      exact ⟨us, hus, .pipeline (.stages (.single hg))⟩

/-- The parentheses around a tree can be taken off. -/
theorem Expression.headed (h : Expression file ts e) : ∃ us, us ⊆ ts ∧ Headed file us e := by
  induction hn : ts.length using Nat.strongRecOn generalizing ts e with
  | ind n ih =>
      subst hn
      cases h with
      | assertion he _ ht => exact ⟨_, List.Subset.refl _, .assertion he ht⟩
      | pipeline h =>
          obtain ⟨hs | ⟨hs, hlength⟩⟩ := h
          · cases hs with
            | applied hf ha hne => exact ⟨_, List.Subset.refl _, .application hf ha hne⟩
            | alone hp =>
                cases hp with
                | single hs => exact ⟨_, List.Subset.refl _, .single hs⟩
                | lambda _ hp hd _ hr _ hb => exact ⟨_, List.Subset.refl _, .lambda hp hd hr hb⟩
                | letIn _ hb hd _ he => exact ⟨_, List.Subset.refl _, .letIn hb hd he⟩
                | group h =>
                    obtain @⟨l, r, us, _, _, he, _⟩ := h
                    have hlt : us.length < (l :: (us ++ [r])).length := by
                      simp only [List.length_cons, List.length_append]
                      omega
                    obtain ⟨vs, hvs, hh⟩ := ih us.length hlt he rfl
                    exact ⟨vs, fun t ht => by simp [hvs ht], hh⟩
          · exact ⟨ts, List.Subset.refl ts, .pipeline hs hlength⟩

/-- A tree was read from a single token, or its parts from the tokens of the tree. -/
theorem Headed.operands (h : Headed file ts e) :
    (∃ t ∈ ts, Single file t e) ∨ OperandsFrom file ts e := by
  cases h with
  | single hs => exact .inl ⟨_, List.mem_cons_self, hs⟩
  | lambda hp _ _ hb => exact .inr (operandsFrom_lambda hp hb)
  | letIn hb _ he => exact .inr (operandsFrom_letIn hb he)
  | application hf ha _ => exact .inr (operandsFrom_application hf ha)
  | pipeline hs hlength => exact .inr (operandsFrom_pipeline hs hlength)
  | assertion he _ =>
      refine .inr ⟨by simp [Expr.operands], fun g hg => ?_⟩
      obtain rfl := List.mem_singleton.mp hg
      exact ⟨_, List.subset_append_left .., .pipeline he⟩

theorem Expression.single_or_operands (h : Expression file ts e) :
    (∃ t ∈ ts, Single file t e) ∨ OperandsFrom file ts e := by
  obtain ⟨us, hus, hh⟩ := h.headed
  rcases hh.operands with ⟨t, ht, hs⟩ | ho
  · exact .inl ⟨t, hus ht, hs⟩
  · exact .inr (ho.mono hus)

/-- A template was read from a single token. -/
theorem Expression.template_single {loc : Location} {parts : List (Part Expr)}
    (h : Expression file ts (.template loc parts)) :
    ∃ t ∈ ts, Single file t (.template loc parts) := by
  obtain ⟨us, hus, hh⟩ := h.headed
  generalize he : Expr.template loc parts = e at hh
  cases hh with
  | @single t _ hs => exact ⟨t, hus List.mem_cons_self, he ▸ hs⟩
  | @pipeline _ stages _ hlength =>
      cases stages with
      | nil => simp at hlength
      | cons stage stages => cases he
  | _ => cases he

/-- What stands directly inside a tree that was read was read itself. -/
theorem Expression.operand (h : Expression file ts e) (hf : f ∈ e.operands) :
    ∃ us, Expression file us f := by
  rcases h.single_or_operands with ⟨t, _, hs⟩ | ho
  · cases hs with
    | template _ _ _ hparts =>
        obtain ⟨part, hpart, hembedded⟩ := List.mem_filterMap.mp hf
        obtain ⟨piece, _, h⟩ := forall₂_mem_right hparts hpart
        cases h with
        | text => cases hembedded
        | body _ _ he =>
            cases hembedded
            exact ⟨_, he⟩
    | _ => cases hf
  · obtain ⟨us, _, hf⟩ := ho.2 f hf
    exact ⟨us, hf⟩

/-- The types written at a tree that was read were read themselves. -/
theorem Headed.annotation {t : Ty} (h : Headed file ts e) (ht : t ∈ e.annotations) :
    ∃ us, Annotation us t := by
  have preceded : ∀ {us}, Preceded .colon Annotation us (Option.some t) →
      ∃ us, Annotation us t := by
    intro us hp
    obtain ⟨vs, -, hvs⟩ := hp.mem
    exact ⟨vs, hvs⟩
  cases h with
  | single hs => cases hs <;> cases ht
  | lambda hp _ hr _ =>
      rcases List.mem_append.mp ht with ht | ht
      · obtain ⟨p, hp', hpt⟩ := List.mem_filterMap.mp ht
        obtain ⟨us, -, ⟨_, htype, _⟩⟩ := hp.mem hp'
        obtain rfl : _ = Option.some t := hpt
        exact preceded htype
      · obtain rfl := Option.mem_toList.mp ht
        exact preceded hr
  | letIn hb _ _ =>
      obtain ⟨b, hb', hbt⟩ := List.mem_filterMap.mp ht
      obtain ⟨us, -, ⟨_, htype, _, _⟩⟩ := hb.mem hb'
      obtain rfl : _ = Option.some t := hbt
      exact preceded htype
  | application => cases ht
  | @pipeline _ stages => cases stages <;> cases ht
  | assertion _ hannotation =>
      obtain rfl := List.mem_singleton.mp ht
      exact ⟨_, hannotation⟩

/-- What occurs in a tree that was read was read itself. -/
theorem Expression.occurs {above : List Expr} (h : Expression file ts e)
    (ho : Expr.Occurs f above e) : ∃ us, Expression file us f := by
  induction ho generalizing ts with
  | here e => exact ⟨ts, h⟩
  | under hf _ ih =>
      obtain ⟨us, hus⟩ := h.operand hf
      exact ih hus

end Grammar

end TypedPrompt
