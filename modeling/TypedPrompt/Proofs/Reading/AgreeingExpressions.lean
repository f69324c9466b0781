/-
# `Proofs.Reading.AgreeingExpressions` — an expression is read alike from what looks alike

One lemma for each production again.  The runs may have different limits: what is
asked of them is that the second one has as many levels left as the first, and as many
templates.  The body of an interpolation is cut into tokens from the place where it
stands, and these look alike if the literals do.

`expressionWithin_agrees` ties the knot.
-/
import TypedPrompt.Proofs.Expr.Views
import TypedPrompt.Proofs.Reading.AgreeingTypes
import TypedPrompt.Reading.Source

namespace TypedPrompt

variable {v : View}

/-- Item by item, or as lists. -/
theorem forall₂_view_iff {α β : Type} {f : α → β} {as bs : List α} :
    List.Forall₂ (fun a b => f a = f b) as bs ↔ as.map f = bs.map f := by
  rw [← List.forall₂_eq_eq_eq, List.forall₂_map_left_iff, List.forall₂_map_right_iff]

/-- A test that the items on both sides pass together. -/
theorem any_congr {α β : Type} {R : α → β → Prop} {f : α → Bool} {g : β → Bool} {as : List α}
    {bs : List β} (h : List.Forall₂ R as bs) (hfg : ∀ a b, R a b → f a = g b) :
    as.any f = bs.any g := by
  induction h with
  | nil => rfl
  | cons hab _ ih => rw [List.any_cons, List.any_cons, ih, hfg _ _ hab]

/-! ## Pieces -/

/-- The pieces look alike. -/
inductive Piece.Alike (v : View) : Piece → Piece → Prop where
  | text (cs : List Char) : Alike v (.text cs) (.text cs)
  | body {p q : Position} (cs : List Char) : v.see p = v.see q → Alike v (.body p cs) (.body q cs)
  | unclosed (cs : List Char) : Alike v (.unclosed cs) (.unclosed cs)

theorem Piece.consText_alike {c : Char} {ps qs : List Piece} (h : List.Forall₂ (Alike v) ps qs) :
    List.Forall₂ (Alike v) (consText c ps) (consText c qs) := by
  cases h with
  | nil => exact .cons (.text _) .nil
  | cons h hs =>
      cases h with
      | text cs => exact .cons (.text _) hs
      | body cs h => exact .cons (.text _) (.cons (.body cs h) hs)
      | unclosed cs => exact .cons (.text _) (.cons (.unclosed cs) hs)

/-- A text is split into the same pieces wherever it begins. -/
theorem Piece.pieces_alike {p q : Position} (h : v.see p = v.see q) (cs : List Char) :
    List.Forall₂ (Alike v) (pieces p cs) (pieces q cs) := by
  fun_induction pieces p cs generalizing q with
  | case1 p cs hn =>
      rw [pieces]
      split
      · exact .cons (.unclosed cs) .nil
      · next hs =>
          rw [hn] at hs
          cases hs
  | @case2 p cs start inside rest hs _ ih =>
      have hstart : v.see start = v.see (q.after openMark) := v.after_congr h openMark
      rw [pieces]
      split
      · next hn =>
          rw [hs] at hn
          cases hn
      · next hs' =>
          rw [hs] at hs'
          cases hs'
          exact .cons (.body inside hstart) (ih (v.after_congr hstart _))
  | case3 p c cs hne ih =>
      rw [pieces]
      · exact consText_alike (ih (v.step_congr h c))
      · exact hne
  | case4 p =>
      rw [pieces]
      exact .nil

namespace Reading

open Reader

/-- The trees look alike. -/
def SameTree (v : View) (e e' : Expr) : Prop := e.view v = e'.view v

/-- The parameters look alike. -/
def SameParam (v : View) (p p' : Parameter Expr) : Prop := Expr.viewParam v p = Expr.viewParam v p'

/-- The bindings look alike. -/
def SameBinding (v : View) (b b' : Binding Expr) : Prop :=
  Expr.viewBinding v b = Expr.viewBinding v b'

/-- The parts look alike. -/
def SamePart (v : View) (p p' : Part Expr) : Prop := Expr.viewPart v p = Expr.viewPart v p'

theorem SameParam.name {p p' : Parameter Expr} (h : SameParam v p p') : p.name = p'.name := by
  have hname : (Expr.viewParam v p).name = (Expr.viewParam v p').name := congrArg _ h
  exact hname

theorem SameBinding.name {b b' : Binding Expr} (h : SameBinding v b b') : b.name = b'.name := by
  have hname : (Expr.viewBinding v b).name = (Expr.viewBinding v b').name := congrArg _ h
  exact hname

theorem textStart_congr {t t' : Token} (h : SameToken v t t') :
    v.see (textStart t) = v.see (textStart t') := by
  rw [textStart_eq, textStart_eq, h.kind]
  exact v.after_congr h.start _

/-- What is read from tokens that look alike, where all of them are taken. -/
theorem complete_agrees {α β : Type} {R : α → β → Prop} {r : Reader α} {r' : Reader β}
    (h : Agrees v R r r') (what : Expectation) {ts us : Tokens} (hts : ts.view v = us.view v) :
    Follows v R (complete r what ts) (complete r' what us) := by
  refine (Input.follows_ofTokens hts).bind fun i j hij => (h i j hij).bind fun a b hab => ?_
  exact (Agrees.expect .endOfInput what a.2 b.2 hab.2).bind fun _ _ _ => .ok hab.1

/-! ## Looking ahead -/

theorem closesParameters_follows {ts us : Tokens} (h : ts.view v = us.view v) {t t' : Token}
    (ht : SameToken v t t') (depth : Nat) :
    Follows v Eq (closesParameters depth t ts) (closesParameters depth t' us) := by
  induction ts generalizing us t t' depth with
  | fault e =>
      cases us with
      | fault e' => exact .error (congrArg Failure.lexical (by simpa [Tokens.view] using h))
      | _ => cases h
  | finish u =>
      cases us with
      | finish u' => exact .ok rfl
      | _ => cases h
  | cons u ts ih =>
      cases us with
      | cons u' us =>
          rw [Tokens.view, Tokens.view, Tokens.cons.injEq] at h
          have hu : SameToken v u u' := h.1
          rw [closesParameters, closesParameters, ht.kind]
          cases t'.kind with
          | symbol s =>
              simp only
              split
              · exact ih h.2 hu (depth + 1)
              · split
                · cases depth with
                  | zero => exact .ok (by simp [followsParameters, hu.kind])
                  | succ depth => exact ih h.2 hu depth
                · exact ih h.2 hu depth
          | _ => exact ih h.2 hu depth
      | _ => cases h

theorem opensLambda_follows {i i' : Input} (h : i.view v = i'.view v) :
    Follows v Eq (opensLambda i) (opensLambda i') := by
  refine (Input.follows_advance h).bind fun j j' hj => ?_
  rw [Input.kind_of_view_eq hj]
  by_cases hright : j'.current.kind = .symbol .rightParen
  · rw [if_pos hright, if_pos hright]
    refine (Input.follows_advance hj).bind fun k k' hl => .ok ?_
    rw [followsParameters, followsParameters, Input.kind_of_view_eq hl]
  · rw [if_neg hright, if_neg hright]
    by_cases hname : j'.current.kind = .name
    · rw [if_pos hname, if_pos hname]
      exact closesParameters_follows (Input.view_eq_iff.mp hj).2 (Input.view_eq_iff.mp hj).1 0
    · rw [if_neg hname, if_neg hname]
      exact .ok rfl

section Productions

variable {settings settings' : Settings} {inner inner' : Inner} {depth depth' : Int}

/-- The readers one level further down agree. -/
structure Inner.Agrees (v : View) (inner inner' : Inner) : Prop where
  expression : Reader.Agrees v (SameTree v) inner.expression inner'.expression
  type : Reader.Agrees v Eq inner.type inner'.type
  interpolation {p q : Position} (h : v.see p = v.see q) (cs : List Char) :
    Follows v (SameTree v) (inner.interpolation p cs) (inner'.interpolation q cs)

theorem place_congr (hfile : v.seeFile settings.file = v.seeFile settings'.file) {t t' : Token}
    (h : SameToken v t t') : (place settings t).view v = (place settings' t').view v := by
  simp [place, Location.view, hfile, h.start]

variable (hfile : v.seeFile settings.file = v.seeFile settings'.file)
  (hinner : Inner.Agrees v inner inner')

include hinner

theorem optionalType_agrees : Agrees v Eq (optionalType inner) (optionalType inner') := by
  refine .bind (.accept _) ?_
  rintro typed _ rfl
  refine .ite Iff.rfl (fun _ => .bind hinner.type ?_) fun _ => .pure rfl
  rintro t _ rfl
  exact .pure rfl

/-! ## Lambdas and lets -/

theorem parameter_agrees {before before' : List (Parameter Expr)}
    (hbefore : List.Forall₂ (SameParam v) before before') :
    Agrees v (SameParam v) (parameter inner before) (parameter inner' before') := by
  refine .bind (.expect _ _) fun n n' hn => ?_
  rw [hn.text, any_congr hbefore fun p p' hp => by rw [hp.name]]
  refine .ite Iff.rfl (fun _ => .failAt hn rfl) fun _ => .bind (optionalType_agrees hinner) ?_
  rintro type _ rfl
  refine .bind (.accept _) ?_
  rintro defaulted _ rfl
  refine .ite Iff.rfl (fun _ => .bind hinner.expression fun e e' he => .pure ?_) fun _ => .pure rfl
  simp [SameParam, Expr.viewParam, show e.view v = e'.view v from he]

include hfile in
theorem lambda_agrees :
    Agrees v (SameTree v) (lambda settings inner) (lambda settings' inner') := by
  refine .bind (.expect _ _) fun l l' hl => ?_
  refine .listed (fun _ _ => parameter_agrees hinner) fun params params' hparams => ?_
  refine .bind (.expect _ _) fun _ _ _ => .bind (optionalType_agrees hinner) ?_
  rintro returns _ rfl
  refine .bind (.expect _ _) fun _ _ _ => .bind hinner.expression fun body body' hbody => .pure ?_
  simp [SameTree, Expr.view, place_congr hfile hl, Expr.viewParams_eq, forall₂_view_iff.mp hparams,
    show body.view v = body'.view v from hbody]

theorem binding_agrees {before before' : List (Binding Expr)}
    (hbefore : List.Forall₂ (SameBinding v) before before') :
    Agrees v (SameBinding v) (binding inner before) (binding inner' before') := by
  refine .bind (.expect _ _) fun n n' hn => ?_
  rw [hn.text, any_congr hbefore fun b b' hb => by rw [hb.name]]
  refine .ite Iff.rfl (fun _ => .failAt hn rfl) fun _ => .bind (optionalType_agrees hinner) ?_
  rintro type _ rfl
  refine .bind (.expect _ _) fun _ _ _ => .bind hinner.expression fun e e' he => .pure ?_
  simp [SameBinding, Expr.viewBinding, show e.view v = e'.view v from he]

include hfile in
theorem letIn_agrees : Agrees v (SameTree v) (letIn settings inner) (letIn settings' inner') := by
  refine .bind (.expect _ _) fun l l' hl => ?_
  refine .bind (.separated fun _ _ => binding_agrees hinner) fun bindings bindings' hbindings => ?_
  refine .bind (.expect _ _) fun _ _ _ => .bind hinner.expression fun body body' hbody => .pure ?_
  simp [SameTree, Expr.view, place_congr hfile hl, Expr.viewBindings_eq,
    forall₂_view_iff.mp hbindings, show body.view v = body'.view v from hbody]

/-! ## Templates -/

section Templates

variable (hdepth : settings.maxDepth - depth ≤ settings'.maxDepth - depth')

include hdepth

theorem part_follows {t t' : Token} (ht : SameToken v t t') {piece piece' : Piece}
    (h : Piece.Alike v piece piece') :
    Follows v (SamePart v) (part settings inner depth t piece)
      (part settings' inner' depth' t' piece') := by
  cases h with
  | text cs => exact .ok rfl
  | unclosed cs => exact .error (by simp [Failure.view, SyntaxCause.view, ht.start])
  | body cs hp =>
      rw [part, part]
      split
      · exact .error (by simp [Failure.view, SyntaxCause.view, ht.start])
      · split
        · exact .limit rfl
        · have hlimit : ¬ settings'.maxDepth ≤ depth' := by
            omega
          rw [if_neg hlimit]
          refine (hinner.interpolation hp cs).map fun e e' he => ?_
          exact congrArg Part.embed he

include hfile in
theorem template_agrees :
    Agrees v (SameTree v) (template settings inner depth) (template settings' inner' depth') := by
  refine .bind .step fun t t' ht => ?_
  rw [ht.text]
  refine .bind (.lift (Follows.mapM (fun _ _ h => part_follows hinner hdepth ht h)
    (Piece.pieces_alike (textStart_congr ht) t'.text.toList))) fun parts parts' hparts => .pure ?_
  simp [SameTree, Expr.view, place_congr hfile ht, Expr.viewParts_eq, forall₂_view_iff.mp hparts]

/-! ## Primaries -/

include hfile in
theorem textLiteral_agrees {t t' : Token} (ht : SameToken v t t') :
    Agrees v (SameTree v) (textLiteral settings inner depth t)
      (textLiteral settings' inner' depth' t') := by
  unfold textLiteral
  rw [ht.text]
  refine .ite Iff.rfl (fun _ => template_agrees hfile hinner hdepth) fun _ => ?_
  exact .bind .step fun _ _ _ => .pure (by simp [SameTree, Expr.view, place_congr hfile ht])

omit hdepth in
theorem group_agrees : Agrees v (SameTree v) (group inner) (group inner') :=
  .bind .step fun _ _ _ => .bind hinner.expression fun _ _ he =>
    .bind (.expect _ _) fun _ _ _ => .pure he

include hfile in
theorem primary_agrees :
    Agrees v (SameTree v) (primary settings inner depth) (primary settings' inner' depth') := by
  refine .bind .peek fun t t' ht => ?_
  have hplace := place_congr hfile ht
  rw [ht.kind, ht.text]
  cases t'.kind with
  | string => exact textLiteral_agrees hfile hinner hdepth ht
  | template => exact textLiteral_agrees hfile hinner hdepth ht
  | number =>
      refine .bind .step fun _ _ _ => ?_
      have hvalue : numberValue t = numberValue t' := by
        rw [numberValue, numberValue, numeral_congr ht]
      rw [hvalue]
      refine .bind (.lift (.refl (R := Eq) (fun _ => rfl) _)) ?_
      rintro x _ rfl
      exact .pure (by simp [SameTree, Expr.view, hplace])
  | boolean =>
      exact .bind .step fun _ _ _ => .pure (by simp [SameTree, Expr.view, hplace])
  | name => exact .bind .step fun _ _ _ => .pure (by simp [SameTree, Expr.view, hplace])
  | endOfInput => exact .failAt ht (congrArg SyntaxCause.unexpected ht)
  | keyword k =>
      cases k with
      | letWord => exact letIn_agrees hfile hinner
      | _ => exact .failAt ht (congrArg SyntaxCause.unexpected ht)
  | symbol s =>
      cases s with
      | leftParen =>
          have hopens : Agrees v Eq (fun i => (opensLambda i).map fun b => (b, i))
              (fun i => (opensLambda i).map fun b => (b, i)) :=
            fun i i' hi => (opensLambda_follows hi).map fun _ _ hb => ⟨hb, hi⟩
          refine .bind hopens ?_
          rintro b _ rfl
          exact .ite Iff.rfl (fun _ => lambda_agrees hfile hinner) fun _ => group_agrees hinner
      | _ => exact .failAt ht (congrArg SyntaxCause.unexpected ht)

/-! ## Applications, pipelines, assertions -/

omit hinner hdepth in
theorem applied_congr {f f' : Expr} (hf : SameTree v f f') {as as' : List Expr}
    (has : List.Forall₂ (SameTree v) as as') : SameTree v (applied f as) (applied f' as') := by
  have hf : f.view v = f'.view v := hf
  cases has with
  | nil => exact hf
  | cons ha has =>
      have hall := forall₂_view_iff.mp (List.Forall₂.cons ha has)
      simp [applied, SameTree, Expr.view, Expr.view_loc hf, Expr.viewAll_eq, hf, hall]

include hfile in
theorem application_agrees :
    Agrees v (SameTree v) (application settings inner depth)
      (application settings' inner' depth') := by
  have hprimary := primary_agrees hfile hinner hdepth
  exact .bind hprimary fun _ _ hf => .bind (.repeated hprimary) fun _ _ has =>
    .pure (applied_congr hf has)

omit hinner hdepth in
theorem piped_congr {stages stages' : List Expr}
    (h : List.Forall₂ (SameTree v) stages stages') : SameTree v (piped stages) (piped stages') := by
  cases h with
  | nil => exact rfl
  | cons hs h =>
      cases h with
      | nil => exact hs
      | cons hs' h =>
          have hall := forall₂_view_iff.mp (List.Forall₂.cons hs (.cons hs' h))
          simp [piped, SameTree, Expr.view, Expr.view_loc hs, Expr.viewAll_eq, hall]

include hfile in
theorem pipeline_agrees :
    Agrees v (SameTree v) (pipeline settings inner depth) (pipeline settings' inner' depth') :=
  .bind (.separated fun _ _ _ => application_agrees hfile hinner hdepth) fun _ _ hs =>
    .pure (piped_congr hs)

include hfile in
theorem asserted_agrees :
    Agrees v (SameTree v) (asserted settings inner depth) (asserted settings' inner' depth') := by
  refine .bind (pipeline_agrees hfile hinner hdepth) fun e e' he => .bind (.accept _) ?_
  rintro typed _ rfl
  refine .ite Iff.rfl (fun _ => .bind hinner.type ?_) fun _ => .pure he
  rintro t _ rfl
  have he : e.view v = e'.view v := he
  exact .pure (by simp [SameTree, Expr.view, Expr.view_loc he, he])

end Templates

end Productions

/-- An expression that is read within some limits is read alike within larger ones. -/
theorem expressionWithin_agrees {settings settings' : Settings}
    (hfile : v.seeFile settings.file = v.seeFile settings'.file) {levels levels' : Nat}
    (hlevels : levels ≤ levels') {depth depth' : Int}
    (hdepth : settings.maxDepth - depth ≤ settings'.maxDepth - depth') :
    Agrees v (SameTree v) (expressionWithin settings levels depth)
      (expressionWithin settings' levels' depth') := by
  induction levels generalizing levels' depth depth' with
  | zero => exact fun i i' _ => .limit rfl
  | succ levels ih =>
      obtain ⟨more, rfl⟩ := Nat.exists_eq_add_of_lt hlevels
      have hle : levels ≤ levels + more := Nat.le_add_right levels more
      refine asserted_agrees hfile ⟨ih hle hdepth, typeWithin_agrees hle, ?_⟩ hdepth
      intro p q h cs
      exact complete_agrees (ih hle (by omega)) .endOfInput (view_tokensOf h cs)

end Reading

end TypedPrompt
