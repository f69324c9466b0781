/-
# `Proofs.Reading.Depth` — how deep a tree that is read can go

The levels that are left when reading begins bound the tree that comes out.  One level
of an expression adds up to four nodes on the way down, an assertion, a pipeline, an
application and a primary, and one level of a type adds up to three steps, to a
member of a union, from there to a member of an intersection and from there to a part.
A group adds none.  The body of an interpolation goes on with the levels of the
template around it, and so the bound holds across templates as well.

One lemma for each production again (`Reader.Yields`), where nothing is said about the
tokens: if what is read one level further down stays within some bounds, then the
production stays within somewhat larger ones.

The whole library is imported for the examples, which `cbv` runs by the equations of core
functions that it finds there.
-/
import Mathlib
import TypedPrompt.Proofs.Expr.Occurrence
import TypedPrompt.Proofs.Reading.DerivedExpressions
import TypedPrompt.Proofs.Reading.Forms
import TypedPrompt.Proofs.Ty.Normalisation

namespace TypedPrompt

namespace Expr

/-! ## Bounds on a tree -/

/-- A template. -/
def isTemplate : Expr → Bool
  | template .. => true
  | _ => false

/-- Bounds on a tree: on the nodes on a way down, on the templates around one another,
and on the height of the types that are written anywhere. -/
structure Within (nodes templates height : Nat) (e : Expr) : Prop where
  nodes {f : Expr} {above : List Expr} : Occurs f above e → above.length < nodes
  templates {f : Expr} {above : List Expr} : Occurs f above e →
    above.countP isTemplate ≤ templates
  height {f : Expr} {above : List Expr} : Occurs f above e → ∀ t ∈ f.annotations, t.height < height

variable {n k h : Nat} {e : Expr}

theorem Within.mono {n' h' : Nat} (hw : Within n k h e) (hn : n ≤ n') (hh : h ≤ h') :
    Within n' k h' e where
  nodes ho := Nat.lt_of_lt_of_le (hw.nodes ho) hn
  templates ho := hw.templates ho
  height ho t ht := Nat.lt_of_lt_of_le (hw.height ho t ht) hh

/-- A node adds itself to the way down, and a template adds itself to the templates. -/
theorem Within.of_operands (ht : ∀ t ∈ e.annotations, t.height < h)
    (hoperands : ∀ f ∈ e.operands, ∃ k', k' + (isTemplate e).toNat ≤ k ∧ Within n k' h f) :
    Within (n + 1) k h e where
  nodes ho := by
    cases ho with
    | here => exact Nat.succ_pos n
    | under hf ho =>
        obtain ⟨k', -, hw⟩ := hoperands _ hf
        exact Nat.succ_lt_succ (hw.nodes ho)
  templates ho := by
    cases ho with
    | here => exact Nat.zero_le k
    | under hf ho =>
        obtain ⟨k', hk, hw⟩ := hoperands _ hf
        have := hw.templates ho
        cases hb : isTemplate e <;> simp [hb] at hk ⊢ <;> omega
  height ho := by
    cases ho with
    | here => exact ht
    | under hf ho =>
        obtain ⟨k', -, hw⟩ := hoperands _ hf
        exact hw.height ho

/-- A node that is no template. -/
theorem Within.node (hb : isTemplate e = false) (ht : ∀ t ∈ e.annotations, t.height < h)
    (hoperands : ∀ f ∈ e.operands, Within n k h f) : Within (n + 1) k h e :=
  .of_operands ht fun f hf => ⟨k, by simp [hb], hoperands f hf⟩

end Expr

namespace Reading

open Reader Grammar
open TypedPrompt.Expr (Within)

/-! ## Types -/

section Types

variable {inner : Reader Ty} {k : Nat} (hinner : ∀ i, inner.Yields i fun _ t => t.height ≤ k)

/-- Stepping over a token of a kind, whichever it is. -/
theorem expect_bind {α : Type} {kind : Kind} {what : Expectation} {f : Token → Reader α}
    {P : α → Prop} {i : Input} (hk : kind ≠ .endOfInput)
    (h : ∀ t j, (f t).Yields j fun _ a => P a) :
    (expect kind what >>= f).Yields i fun _ a => P a :=
  Yields.bind (expect_yields hk) fun t _ j _ => h t j

include hinner

theorem namedType_height {i : Input} :
    (namedType inner).Yields i fun _ (_, type, _) => type.height ≤ k := by
  refine expect_bind (by simp) fun name j => ?_
  refine Yields.bind question_yields fun early _ j _ => ?_
  refine expect_bind (by simp) fun colon j => ?_
  refine Yields.bind (hinner j) fun type _ j htype => ?_
  refine Yields.bind question_yields fun late _ j _ => ?_
  exact Yields.pure htype

theorem functionType_height {i : Input} :
    (functionType inner).Yields i fun _ t => t.height ≤ k + 1 := by
  refine expect_bind (by simp) fun opening j => ?_
  have hparam : ∀ i, (paramType inner).Yields i fun _ p => p.type.height ≤ k := fun i =>
    Yields.bind (namedType_height hinner) fun _ _ _ htype => Yields.pure htype
  refine listed_yields (I := fun _ => True) (by simp) trivial
    (fun _ i _ => (hparam i).mono fun _ _ h => ⟨h, trivial⟩) fun params _ j hparams _ => ?_
  refine expect_bind (by simp) fun closing j => ?_
  refine expect_bind (by simp) fun arrow j => ?_
  refine Yields.bind (hinner j) fun returns _ j hreturns => ?_
  refine Yields.pure (Ty.height_le_succ_iff.mpr fun u hu => ?_)
  rcases List.mem_append.mp hu with hu | hu
  · obtain ⟨p, hp, rfl⟩ := List.mem_map.mp hu
    obtain ⟨_, _, htype⟩ := hparams.mem hp
    exact htype
  · obtain rfl := List.mem_singleton.mp hu
    exact hreturns

theorem listType_height {i : Input} :
    (listType inner).Yields i fun _ t => t.height ≤ k + 1 := by
  refine Yields.accept_ite (by simp) (fun _ j _ => ?_) (Yields.pure (by simp [Ty.height]))
  refine Yields.bind (hinner j) fun element _ j helement => ?_
  refine Yields.bind lengthBounds_yields fun bounds _ j _ => ?_
  refine expect_bind (by simp) fun closing j => ?_
  exact Yields.pure (Nat.succ_le_succ helement)

theorem recordType_height {i : Input} :
    (recordType inner).Yields i fun _ t => t.height ≤ k + 1 := by
  refine Yields.accept_ite (by simp) (fun _ j _ => ?_) (Yields.pure (Nat.zero_le _))
  have hfield : ∀ before i, (fieldType inner before).Yields i fun _ f => f.type.height ≤ k :=
    fun before i => Yields.bind (namedType_height hinner) fun _ _ _ htype =>
      Yields.ite (fun _ => Yields.peek_bind Yields.failAt) fun _ => Yields.pure htype
  refine listed_yields (I := fun _ => True) (by simp) trivial
    (fun before i _ => (hfield before i).mono fun _ _ h => ⟨h, trivial⟩)
    fun fields _ j hfields _ => ?_
  refine expect_bind (by simp) fun closing j => ?_
  refine Yields.pure (Ty.height_le_succ_iff.mpr fun u hu => ?_)
  obtain ⟨f, hf, rfl⟩ := List.mem_map.mp hu
  obtain ⟨_, _, htype⟩ := hfields.mem hf
  exact htype

theorem dynamicType_height {i : Input} :
    (dynamicType inner).Yields i fun _ t => t.height ≤ k + 1 := by
  refine Yields.accept_ite (by simp) (fun _ j _ => ?_) (Yields.pure (by simp [Ty.height]))
  refine Yields.bind (hinner j) fun constraint _ j hconstraint => ?_
  refine expect_bind (by simp) fun closing j => ?_
  exact Yields.pure (Nat.succ_le_succ hconstraint)

theorem promptType_height {i : Input} :
    (promptType inner).Yields i fun _ t => t.height ≤ k + 1 := by
  refine Yields.accept_ite (by simp) (fun _ j _ => ?_) (Yields.pure (by simp [Ty.height]))
  refine Yields.bind (hinner j) fun input _ j hinput => ?_
  refine expect_bind (by simp) fun comma j => ?_
  refine Yields.bind (hinner j) fun output _ j houtput => ?_
  refine Yields.bind promptSettings_yields fun settings _ j _ => ?_
  refine expect_bind (by simp) fun closing j => ?_
  exact Yields.pure (Nat.succ_le_succ (Nat.max_le.mpr ⟨hinput, houtput⟩))

theorem typeOfName_height {name : String} {i : Input} :
    (typeOfName inner name).Yields i fun _ t => t.height ≤ k + 1 := by
  unfold typeOfName
  split
  · exact Yields.pure (by simp [Ty.height])
  · refine Yields.ite (fun _ => Yields.pure (by simp [Ty.height])) fun _ => ?_
    refine Yields.ite (fun _ => listType_height hinner) fun _ => ?_
    refine Yields.ite (fun _ => recordType_height hinner) fun _ => ?_
    refine Yields.ite (fun _ => dynamicType_height hinner) fun _ => ?_
    refine Yields.ite (fun _ => promptType_height hinner) fun _ => ?_
    exact Yields.pure (by simp [Ty.height])

theorem atomType_height {i : Input} : (atomType inner).Yields i fun _ t => t.height ≤ k + 1 := by
  refine Yields.at_bind (Yields.ite (fun hl => ?_) fun _ => ?_)
  · refine Yields.ahead_bind fun isFunction => ?_
    refine Yields.ite (fun _ => functionType_height hinner) fun _ => ?_
    refine Yields.bind (step_yields (by simp) (eq_of_beq hl)) fun _ _ j _ => ?_
    refine Yields.bind (hinner j) fun t _ j ht => ?_
    refine expect_bind (by simp) fun closing j => ?_
    exact Yields.pure (Nat.le_succ_of_le ht)
  · exact expect_bind (by simp) fun name j => typeOfName_height hinner

omit hinner in
/-- Several types put together go one step deeper. -/
theorem combine_height {put : List Ty → Ty} {item : Reader Ty} {sep : Kind} {i : Input}
    (hsep : sep ≠ .endOfInput) (hitem : ∀ i, item.Yields i fun _ t => t.height ≤ k)
    (hput : ∀ ts : List Ty, (∀ t ∈ ts, t.height ≤ k) → (put ts).height ≤ k + 1) :
    (separated sep (fun _ => item) >>= fun ts => pure (combine put ts)).Yields i
      fun _ t => t.height ≤ k + 1 := by
  refine Yields.bind (separated_yields_plain hsep hitem) fun members _ j hmembers => ?_
  have hmem : ∀ t ∈ members, t.height ≤ k := by
    intro t ht
    obtain ⟨_, _, h⟩ := hmembers.mem ht
    exact h
  refine Yields.pure ?_
  unfold combine
  split
  · exact Nat.le_succ_of_le (hmem _ (List.mem_singleton_self _))
  · exact hput _ hmem

theorem unionType_height {i : Input} : (unionType inner).Yields i fun _ t => t.height ≤ k + 3 := by
  have hinter : ∀ i, (interType inner).Yields i fun _ t => t.height ≤ k + 2 := fun i =>
    combine_height (by simp) (fun i => atomType_height hinner) fun _ => Ty.height_interOf_le
  exact combine_height (by simp) hinter fun _ => Ty.height_unionOf_le

end Types

/-- Each level of a type adds at most three steps. -/
theorem typeWithin_height (limit : Int) (levels : Nat) (i : Input) :
    (typeWithin limit levels).Yields i fun _ t => t.height ≤ 3 * levels := by
  induction levels generalizing i with
  | zero => exact Yields.peek_bind Yields.failAt
  | succ levels ih => exact unionType_height ih

/-! ## Expressions -/

section Expressions

variable {settings : Settings} {inner : Inner} {n k h : Nat} {depth : Int}
  (hexpression : ∀ i, inner.expression.Yields i fun _ e => Within n k h e)
  (htype : ∀ i, inner.type.Yields i fun _ t => t.height < h)
  (hinterpolation : ∀ start cs e, depth < settings.maxDepth →
    inner.interpolation start cs = .ok e → ∃ k', k' + 1 ≤ k ∧ Within n k' h e)

include htype in
theorem optionalType_height {i : Input} :
    (optionalType inner).Yields i fun _ type => ∀ t ∈ type, t.height < h := by
  refine Yields.accept_ite (by simp) (fun _ j _ => ?_) (Yields.pure (by simp))
  refine Yields.bind (htype j) fun t _ j ht => ?_
  exact Yields.pure (by simpa using ht)

/-- The type and the expression of a parameter or of a binding keep to the bounds. -/
def SlotWithin (n k h : Nat) (type : Option Ty) (value : Option Expr) : Prop :=
  (∀ t ∈ type, t.height < h) ∧ ∀ e ∈ value, Within n k h e

include hexpression htype in
theorem parameter_within {before : List (Parameter Expr)} {i : Input} :
    (parameter inner before).Yields i fun _ p => SlotWithin n k h p.type p.default := by
  refine expect_bind (by simp) fun name j => ?_
  refine Yields.ite (fun _ => Yields.failAt) fun _ => ?_
  refine Yields.bind (optionalType_height htype) fun type _ j ht => ?_
  refine Yields.accept_ite (by simp) (fun _ j _ => ?_) ?_
  · refine Yields.bind (hexpression j) fun default _ j hd => ?_
    exact Yields.pure ⟨ht, by simpa using hd⟩
  · exact Yields.pure ⟨ht, by simp⟩

include hexpression htype in
theorem lambda_within {i : Input} :
    (lambda settings inner).Yields i fun _ e => Within (n + 1) k h e := by
  refine expect_bind (by simp) fun opening j => ?_
  refine listed_yields (I := fun _ => True) (by simp) trivial
    (fun before i _ => (parameter_within hexpression htype).mono fun _ _ h => ⟨h, trivial⟩)
    fun params _ j hparams _ => ?_
  refine expect_bind (by simp) fun closing j => ?_
  refine Yields.bind (optionalType_height htype) fun returns _ j hreturns => ?_
  refine expect_bind (by simp) fun arrow j => ?_
  refine Yields.bind (hexpression j) fun body _ j hbody => ?_
  have hparam : ∀ p ∈ params, SlotWithin n k h p.type p.default := by
    intro p hp
    obtain ⟨_, _, h⟩ := hparams.mem hp
    exact h
  refine Yields.pure (Within.node rfl (fun t ht => ?_) fun f hf => ?_)
  · rcases List.mem_append.mp ht with ht | ht
    · obtain ⟨p, hp, hpt⟩ := List.mem_filterMap.mp ht
      exact (hparam p hp).1 t hpt
    · exact hreturns t (Option.mem_toList.mp ht)
  · rcases List.mem_append.mp hf with hf | hf
    · obtain ⟨p, hp, hpf⟩ := List.mem_filterMap.mp hf
      exact (hparam p hp).2 f hpf
    · obtain rfl := List.mem_singleton.mp hf
      exact hbody

include hexpression htype in
theorem binding_within {before : List (Binding Expr)} {i : Input} :
    (binding inner before).Yields i fun _ b => SlotWithin n k h b.type (some b.value) := by
  refine expect_bind (by simp) fun name j => ?_
  refine Yields.ite (fun _ => Yields.failAt) fun _ => ?_
  refine Yields.bind (optionalType_height htype) fun type _ j ht => ?_
  refine expect_bind (by simp) fun equals j => ?_
  refine Yields.bind (hexpression j) fun value _ j hv => ?_
  exact Yields.pure ⟨ht, by simpa using hv⟩

include hexpression htype in
theorem letIn_within {i : Input} :
    (letIn settings inner).Yields i fun _ e => Within (n + 1) k h e := by
  refine expect_bind (by simp) fun opening j => ?_
  refine Yields.bind (separated_yields (I := fun _ => True) (by simp) trivial
    fun before i _ => (binding_within hexpression htype).mono fun _ _ h => ⟨h, trivial⟩)
    fun bindings _ j hbindings => ?_
  refine expect_bind (by simp) fun inWord j => ?_
  refine Yields.bind (hexpression j) fun body _ j hbody => ?_
  have hbinding : ∀ b ∈ bindings, SlotWithin n k h b.type (some b.value) := by
    intro b hb
    obtain ⟨_, _, h⟩ := hbindings.1.mem hb
    exact h
  refine Yields.pure (Within.node rfl (fun t ht => ?_) fun f hf => ?_)
  · obtain ⟨b, hb, hbt⟩ := List.mem_filterMap.mp ht
    exact (hbinding b hb).1 t hbt
  · rcases List.mem_append.mp hf with hf | hf
    · obtain ⟨b, hb, rfl⟩ := List.mem_map.mp hf
      exact (hbinding b hb).2 _ rfl
    · obtain rfl := List.mem_singleton.mp hf
      exact hbody

/-- What is embedded was read as an interpolation, where one more template is allowed. -/
theorem interpolation_of_part {t : Token} {piece : Piece} {e : Expr}
    (hp : part settings inner depth t piece = .ok (.embed e)) :
    depth < settings.maxDepth ∧ ∃ start cs, inner.interpolation start cs = .ok e := by
  rcases part_eq_ok hp with ⟨_, -, heq⟩ | ⟨start, cs, e', -, heq, -, hd, he⟩
  · cases heq
  · cases heq
    exact ⟨hd, start, cs, he⟩

include hinterpolation in
theorem textLiteral_within {t : Token} {i : Input} (ht : IsTextLiteral i.current) :
    (textLiteral settings inner depth t).Yields i fun _ e => Within (n + 1) k h e := by
  have hstep : step.Yields i fun _ _ => True := by
    refine Yields.step ?_ fun _ => trivial
    rcases ht with ht | ht <;> simp [ht]
  refine Yields.ite (fun _ => ?_) fun _ => ?_
  · refine Yields.bind hstep fun t _ j _ => ?_
    refine Yields.bind (R := fun _ ps =>
      (Piece.pieces (textStart t) t.text.toList).mapM (part settings inner depth t) = .ok ps)
      (Yields.lift fun _ hps => hps) fun parts _ j hparts => ?_
    refine Yields.pure (Within.of_operands (by simp [Expr.annotations]) fun f hf => ?_)
    obtain ⟨p, hp, hpf⟩ := List.mem_filterMap.mp hf
    obtain ⟨piece, -, hpart⟩ := forall₂_mem_right (mapM_eq_ok_iff.mp hparts) hp
    cases p with
    | text => cases hpf
    | embed e =>
        cases hpf
        obtain ⟨hd, start, cs, he⟩ := interpolation_of_part hpart
        exact hinterpolation start cs _ hd he
  · refine Yields.bind hstep fun _ _ j _ => ?_
    exact Yields.pure (Within.node rfl (by simp [Expr.annotations]) (by simp [Expr.operands]))

include hexpression htype hinterpolation

theorem primary_within {i : Input} :
    (primary settings inner depth).Yields i fun _ e => Within (n + 1) k h e := by
  have hstep : i.current.kind ≠ .endOfInput → step.Yields i fun _ _ => True :=
    fun hk => Yields.step hk fun _ => trivial
  have leaf : ∀ e : Expr, e.isTemplate = false → e.annotations = [] → e.operands = [] →
      Within (n + 1) k h e := fun e hb ht hf => Within.node hb (by simp [ht]) (by simp [hf])
  refine Yields.peek_bind ?_
  split
  · next hk => exact textLiteral_within hinterpolation (.inl hk)
  · next hk => exact textLiteral_within hinterpolation (.inr hk)
  · next hk =>
      refine Yields.bind (hstep (by simp [hk])) fun _ _ j _ => ?_
      refine Yields.bind (R := fun _ _ => True) (Yields.lift fun _ _ => trivial) fun v _ j _ => ?_
      exact Yields.pure (leaf _ rfl rfl rfl)
  · next hk =>
      refine Yields.bind (hstep (by simp [hk])) fun _ _ j _ => ?_
      exact Yields.pure (leaf _ rfl rfl rfl)
  · next hk =>
      refine Yields.look_bind (opensLambda_still i) fun isLambda => ?_
      refine Yields.ite (fun _ => lambda_within hexpression htype) fun _ => ?_
      -- a group adds no node
      refine Yields.bind (hstep (by simp [hk])) fun _ _ j _ => ?_
      refine Yields.bind (hexpression j) fun e _ j he => ?_
      refine expect_bind (by simp) fun closing j => ?_
      exact Yields.pure (he.mono (Nat.le_succ n) (Nat.le_refl h))
  · exact letIn_within hexpression htype
  · next hk =>
      refine Yields.bind (hstep (by simp [hk])) fun _ _ j _ => ?_
      exact Yields.pure (leaf _ rfl rfl rfl)
  · exact Yields.failAt

theorem application_within {i : Input} :
    (application settings inner depth).Yields i fun _ e => Within (n + 2) k h e := by
  have hprimary : ∀ i, (primary settings inner depth).Yields i fun _ e => Within (n + 1) k h e :=
    fun i => primary_within hexpression htype hinterpolation
  refine Yields.bind (hprimary i) fun function _ j hf => ?_
  refine Yields.bind (repeated_yields hprimary) fun arguments _ j ha => ?_
  refine Yields.pure ?_
  cases arguments with
  | nil => exact hf.mono (Nat.le_succ _) (Nat.le_refl h)
  | cons argument arguments =>
      refine Within.node rfl (fun _ ht => absurd ht List.not_mem_nil) fun f hmem => ?_
      rcases List.mem_cons.mp hmem with rfl | hmem
      · exact hf
      · obtain ⟨_, _, h⟩ := ha.mem hmem
        exact h

theorem pipeline_within {i : Input} :
    (pipeline settings inner depth).Yields i fun _ e => Within (n + 3) k h e := by
  refine Yields.bind (separated_yields_plain (by simp)
    fun i => application_within hexpression htype hinterpolation) fun stages _ j hs => ?_
  have hstage : ∀ e ∈ stages, Within (n + 2) k h e := by
    intro e he
    obtain ⟨_, _, h⟩ := hs.mem he
    exact h
  refine Yields.pure ?_
  unfold piped
  split
  · exact Within.node rfl (by simp [Expr.annotations]) (by simp [Expr.operands])
  · exact (hstage _ (List.mem_singleton_self _)).mono (Nat.le_succ _) (Nat.le_refl h)
  · exact Within.node rfl (by simp [Expr.annotations]) hstage

theorem asserted_within {i : Input} :
    (asserted settings inner depth).Yields i fun _ e => Within (n + 4) k h e := by
  refine Yields.bind (pipeline_within hexpression htype hinterpolation) fun e _ j he => ?_
  refine Yields.accept_ite (by simp) (fun _ j _ => ?_) ?_
  · refine Yields.bind (htype j) fun t _ j ht => ?_
    exact Yields.pure (Within.node rfl (by simpa [Expr.annotations] using ht)
      (by simpa [Expr.operands] using he))
  · exact Yields.pure (he.mono (Nat.le_succ _) (Nat.le_refl h))

end Expressions

/-- Each level of an expression adds at most four nodes. -/
theorem expressionWithin_within (settings : Settings) (levels : Nat) (depth : Int) (i : Input) :
    (expressionWithin settings levels depth).Yields i fun _ e =>
      Within (4 * levels) (settings.maxDepth - depth).toNat (3 * levels) e := by
  induction levels generalizing depth i with
  | zero => exact Yields.peek_bind Yields.failAt
  | succ levels ih =>
      refine asserted_within (fun i => (ih depth i).mono fun _ _ he => ?_)
        (fun i => (typeWithin_height settings.maxNesting levels i).mono fun _ _ ht => ?_) ?_
      · exact he.mono (Nat.le_refl _) (by omega)
      · exact Nat.lt_of_le_of_lt ht (by omega)
      · intro start cs e hd he
        obtain ⟨_, _, -, hw⟩ := complete_yields (tokensOf_isLexed start cs)
          (fun i => ih (depth + 1) i) he
        exact ⟨_, by omega, hw.mono (Nat.le_refl _) (by omega)⟩

end Reading

namespace Expr

/-- The levels that a context leaves bound the tree that is read there. -/
theorem within_of_read {settings : Reading.Settings} {context : Context} {source : String}
    {e : Expr} (h : read settings context source = .ok e) :
    Within (4 * (settings.maxNesting - context.nesting).toNat)
      (settings.maxDepth - context.depth).toNat
      (3 * (settings.maxNesting - context.nesting).toNat) e := by
  obtain ⟨_, _, -, hw⟩ := Reading.complete_yields (tokensOf_isLexed _ _)
    (fun i => Reading.expressionWithin_within settings _ context.depth i) h
  exact hw

/-- The limits bound what is read: the nodes on each way down, the templates around one
another, and the types, whose height is counted in types here. -/
theorem read_within_limits {settings : Reading.Settings} {source : String} {e f : Expr}
    {above : List Expr} (h : read settings Context.top source = .ok e) (ho : Occurs f above e) :
    ((above ++ [f]).length : Int) ≤ 4 * settings.maxNesting
      ∧ (above.countP isTemplate : Int) ≤ max settings.maxDepth 0
      ∧ ∀ t ∈ f.annotations, (t.height : Int) + 1 ≤ 3 * settings.maxNesting := by
  have hw := within_of_read h
  have hnodes := hw.nodes ho
  have htemplates := hw.templates ho
  simp only [Context.top, Int.sub_zero] at hnodes htemplates
  refine ⟨?_, ?_, fun t ht => ?_⟩
  · simp only [List.length_append, List.length_singleton]
    omega
  · omega
  · have hheight := hw.height ho t ht
    simp only [Context.top, Int.sub_zero] at hheight
    omega

/-- A lambda inside a template, with a list type written at it. -/
theorem read_within_limits_template :
    let source := "\"\x7b\x7b(x: list[string]) -> x\x7d\x7d\""
    ∃ e f above, read ⟨"main", 1, 4⟩ Context.top source = .ok e ∧ Occurs f above e
      ∧ f.annotations = [.list .string none none]
      ∧ ((above ++ [f]).length : Int) ≤ 4 * 4
      ∧ (above.countP isTemplate : Int) ≤ max 1 0
      ∧ ∀ t ∈ f.annotations, (t.height : Int) + 1 ≤ 3 * 4 := by
  intro source
  have h : read ⟨"main", 1, 4⟩ Context.top source
      = .ok (.template ⟨⟨1, 1⟩, "main"⟩ [.embed (.lambda ⟨⟨1, 4⟩, "main"⟩
          [⟨"x", some (.list .string none none), none⟩] (.identifier ⟨⟨1, 25⟩, "main"⟩ "x")
          none)]) := by
    cbv
  exact ⟨_, _, _, h, occurs_of_mem_operands List.mem_cons_self, rfl,
    read_within_limits h (occurs_of_mem_operands List.mem_cons_self)⟩

end Expr

end TypedPrompt
