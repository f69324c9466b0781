/-
# `Proofs.Reading.DerivedExpressions` — an expression that is read has a derivation

One lemma for each production again, under the same condition on the readers one
level further down.  The tree that comes out is the tree of the derivation.  What
a reader looks at ahead does not matter here: a lambda and a group are each
checked by their own productions.
-/
import TypedPrompt.Proofs.Reading.Brackets
import TypedPrompt.Proofs.Reading.DerivedTypes
import TypedPrompt.Reading.Source

namespace TypedPrompt.Reading

open Reader Grammar

/-- An answer about all tokens comes from a derivation of all tokens. -/
theorem complete_yields {α : Type} {r : Reader α} {R : Phrase α} {what : Expectation}
    {ts : Tokens} {a : α} (hl : ts.IsLexed) (hr : ∀ i, r.Yields i R)
    (h : complete r what ts = .ok a) : ∃ eof us, ts = Tokens.ofList eof us ∧ R us a := by
  unfold complete at h
  cases hi : Input.ofTokens ts with
  | error e => simp [hi, Bind.bind, Except.bind] at h
  | ok i =>
      cases hj : r i with
      | error e => simp [hi, hj, Bind.bind, Except.bind] at h
      | ok p =>
          obtain ⟨b, j⟩ := p
          simp only [hi, hj, Bind.bind, Except.bind] at h
          obtain ⟨us, hus, hb⟩ := hr i ⟨ts, hl, hi⟩ b j hj
          by_cases he : j.current.kind = .endOfInput
          · refine ⟨j.current, us, Input.eq_ofList_of_reaches hl hi hus he, ?_⟩
            split at h
            · cases h
            · cases h
              exact hb
          · simp [Reader.expect, peek, Bind.bind, StateT.bind, Except.bind, he, failAt] at h

theorem place_eq (settings : Settings) (t : Token) : place settings t = placeIn settings.file t :=
  rfl

section Productions

variable {settings : Settings} {inner : Inner}
  (hexpression : ∀ i, inner.expression.Yields i (Expression settings.file))
  (htype : ∀ i, inner.type.Yields i Annotation)
  (hinterpolation : ∀ start cs e, inner.interpolation start cs = .ok e →
    ∃ eof ts, tokensOf start cs = Tokens.ofList eof ts ∧ Expression settings.file ts e)

/-! ## Lambdas and lets -/

include htype in
theorem optionalType_yields {i : Input} :
    (optionalType inner).Yields i (Preceded .colon Annotation) := by
  refine Yields.accept_ite (by simp) ?_ (Yields.pure .none)
  intro c j hc
  refine Yields.bind (htype j) ?_
  intro t ts k ht
  refine Yields.pure ?_
  rw [List.append_nil]
  exact .some hc ht

include hexpression htype in
theorem parameter_yields {before : List (Parameter Expr)} {i : Input}
    (hb : (before.map Parameter.name).Nodup) :
    (parameter inner before).Yields i fun ts p =>
      LambdaParameter settings.file ts p ∧ ((before ++ [p]).map Parameter.name).Nodup := by
  refine Yields.bind (expect_yields (by simp)) ?_
  rintro n _ j ⟨hn, rfl⟩
  refine Yields.ite (fun _ => Yields.failAt) ?_
  intro hnew
  have hnew : ∀ p ∈ before, p.name ≠ n.text := by
    simpa using hnew
  refine Yields.bind (optionalType_yields htype) ?_
  intro type ts k ht
  refine Yields.accept_ite (by simp) ?_ ?_
  · intro q l hq
    refine Yields.bind (hexpression l) ?_
    intro default us m hd
    refine Yields.pure ⟨?_, nodup_names hb hnew⟩
    simpa using LambdaParameter.intro hn ht (.some hq hd)
  · refine Yields.pure ⟨?_, nodup_names hb hnew⟩
    simpa using LambdaParameter.intro hn ht (.none (R := Expression settings.file))

include hexpression htype in
/-- A lambda is taken with its parameters, which are told from a group by what is behind them. -/
theorem lambda_yields_parameters {i : Input} :
    (lambda settings inner).Yields i fun ts e =>
      HasParameters settings.file ts ∧ Primary settings.file ts e := by
  refine Yields.bind (expect_yields (by simp)) ?_
  rintro l _ j ⟨hl, rfl⟩
  refine listed_yields (I := fun ps => (ps.map Parameter.name).Nodup) (by simp) (by simp)
    (fun _ i hb => parameter_yields hexpression htype hb) ?_
  intro ps ts k hps hd
  refine Yields.bind (expect_yields (by simp)) ?_
  rintro r _ m ⟨hr, rfl⟩
  refine Yields.bind (optionalType_yields htype) ?_
  intro returns us n hret
  refine Yields.bind (expect_yields (by simp)) ?_
  rintro arrow _ o ⟨ha, rfl⟩
  refine Yields.bind (hexpression o) ?_
  intro body vs p hbody
  refine Yields.pure ?_
  have hparams : HasParameters settings.file (l :: (ts ++ r :: (us ++ arrow :: vs))) :=
    .intro hps hr (hret.followsParameters ha)
  have hprimary := Primary.lambda hl hps hd hr hret ha hbody
  simpa [place_eq] using And.intro hparams hprimary

include hexpression htype in
theorem lambda_yields {i : Input} :
    (lambda settings inner).Yields i (Primary settings.file) :=
  (lambda_yields_parameters hexpression htype).mono fun _ _ h => h.2

include hexpression htype in
theorem binding_yields {before : List (Binding Expr)} {i : Input}
    (hb : (before.map Binding.name).Nodup) :
    (binding inner before).Yields i fun ts b =>
      LetBinding settings.file ts b ∧ ((before ++ [b]).map Binding.name).Nodup := by
  refine Yields.bind (expect_yields (by simp)) ?_
  rintro n _ j ⟨hn, rfl⟩
  refine Yields.ite (fun _ => Yields.failAt) ?_
  intro hnew
  have hnew : ∀ b ∈ before, b.name ≠ n.text := by
    simpa using hnew
  refine Yields.bind (optionalType_yields htype) ?_
  intro type ts k ht
  refine Yields.bind (expect_yields (by simp)) ?_
  rintro q _ l ⟨hq, rfl⟩
  refine Yields.bind (hexpression l) ?_
  intro value us m hv
  refine Yields.pure ⟨?_, nodup_names hb hnew⟩
  simpa using LetBinding.intro hn ht hq hv

include hexpression htype in
theorem letIn_yields {i : Input} :
    (letIn settings inner).Yields i (Primary settings.file) := by
  refine Yields.bind (expect_yields (by simp)) ?_
  rintro l _ j ⟨hl, rfl⟩
  refine Yields.bind (separated_yields (I := fun bs => (bs.map Binding.name).Nodup)
    (by simp) (by simp) fun before i hb => binding_yields hexpression htype hb) ?_
  rintro bs ts k ⟨hbs, hd⟩
  refine Yields.bind (expect_yields (by simp)) ?_
  rintro r _ m ⟨hr, rfl⟩
  refine Yields.bind (hexpression m) ?_
  intro body us n hbody
  refine Yields.pure ?_
  simpa [place_eq] using Primary.letIn hl hbs hd hr hbody

/-! ## Templates -/

/-- A part comes from a run of text, or from a body that is read where there is room. -/
theorem part_eq_ok {depth : Int} {t : Token} {piece : Piece} {p : Part Expr}
    (h : part settings inner depth t piece = .ok p) :
    (∃ cs, piece = .text cs ∧ p = .text (String.ofList cs))
      ∨ ∃ start cs e, piece = .body start cs ∧ p = .embed e ∧ ¬ cs.all Text.isBlank = true
        ∧ depth < settings.maxDepth ∧ inner.interpolation start cs = .ok e := by
  cases piece with
  | text cs =>
      cases h
      exact .inl ⟨cs, rfl, rfl⟩
  | unclosed cs => cases h
  | body start cs =>
      simp only [part] at h
      split at h
      · cases h
      · next hblank =>
          split at h
          · cases h
          · next hroom =>
              cases he : inner.interpolation start cs with
              | error e =>
                  rw [he] at h
                  cases h
              | ok e =>
                  rw [he] at h
                  cases h
                  exact .inr ⟨start, cs, e, rfl, rfl, hblank, Int.not_le.mp hroom, he⟩

include hinterpolation in
theorem part_partOf {depth : Int} {t : Token} {piece : Piece} {p : Part Expr}
    (h : part settings inner depth t piece = .ok p) :
    piece.isUnclosed = false ∧ PartOf settings.file piece p := by
  rcases part_eq_ok h with ⟨cs, rfl, rfl⟩ | ⟨start, cs, e, rfl, rfl, hblank, -, he⟩
  · exact ⟨rfl, .text⟩
  · obtain ⟨eof, ts, hts, hd⟩ := hinterpolation start cs e he
    exact ⟨rfl, .body hblank hts hd⟩

include hinterpolation in
theorem parts_partOf {depth : Int} {t : Token} {pieces : List Piece} {ps : List (Part Expr)}
    (h : pieces.mapM (part settings inner depth t) = .ok ps) :
    (∀ q ∈ pieces, q.isUnclosed = false) ∧ List.Forall₂ (PartOf settings.file) pieces ps := by
  have hf := mapM_eq_ok_iff.mp h
  constructor
  · intro q hq
    obtain ⟨p, -, hp⟩ := forall₂_mem_left hf hq
    exact (part_partOf hinterpolation hp).1
  · exact hf.imp fun q p hp => (part_partOf hinterpolation hp).2

include hinterpolation in
theorem textLiteral_yields {depth : Int} {i : Input} (ht : IsTextLiteral i.current) :
    (textLiteral settings inner depth i.current).Yields i (Primary settings.file) := by
  have hk : i.current.kind ≠ .endOfInput := by
    rcases ht with ht | ht <;> simp [ht]
  have step_current : step.Yields i fun ts t => ts = [i.current] ∧ t = i.current :=
    Yields.step hk fun _ => ⟨rfl, rfl⟩
  refine Yields.ite ?_ ?_
  · intro hm
    refine Yields.bind step_current ?_
    rintro _ _ j ⟨rfl, rfl⟩
    refine Yields.bind (R := fun us ps => us = [] ∧
      (Piece.pieces (textStart i.current) i.current.text.toList).mapM
        (part settings inner depth i.current) = .ok ps)
      (Yields.lift fun ps hps => ⟨rfl, hps⟩) ?_
    rintro ps _ k ⟨rfl, hps⟩
    obtain ⟨hu, hps⟩ := parts_partOf hinterpolation hps
    have hopen := Piece.hasOpenMark_iff.mp hm
    exact Yields.pure (.single (.template ht hopen (Piece.split_pieces hu) hps))
  · intro hm
    refine Yields.bind step_current ?_
    rintro _ _ j ⟨rfl, -⟩
    refine Yields.pure (.single (.text ht ?_))
    rw [← Piece.hasOpenMark_iff]
    exact hm

/-! ## Primaries -/

theorem numberValue_number {t : Token} {v : Value} (ht : t.IsWritten) (hk : t.kind = .number)
    (h : numberValue t = .ok v) : Denotes t v := by
  unfold numberValue at h
  have he : (numeral t).exponent = none := rfl
  cases hf : (numeral t).fraction with
  | none =>
      have hi : (numeral t).isIntegral = true := by
        simp [Numeral.isIntegral, hf, he]
      simp only [hi, if_true] at h
      cases hv : integer (numeral t) with
      | error e =>
          rw [hv] at h
          cases h
      | ok n =>
          rw [hv] at h
          cases h
          obtain ⟨ht, rfl⟩ := integer_numeral ht hk hf hv
          exact .integer ht
  | some ds =>
      have hi : (numeral t).isIntegral = false := by
        simp [Numeral.isIntegral, hf]
      simp only [hi] at h
      cases h
      exact .real hk (by rw [hf]; rfl)

include hexpression in
/-- A group is taken from its parenthesis to the one that closes it. -/
theorem group_yields {i : Input} (hl : i.current.kind = .symbol .leftParen) :
    (group inner).Yields i
      (Enclosed .leftParen .rightParen (Expression settings.file)) := by
  refine Yields.bind (step_yields (by simp) hl) ?_
  rintro l _ j ⟨hl, rfl⟩
  refine Yields.bind (hexpression j) ?_
  intro e ts k he
  refine Yields.bind (expect_yields (by simp)) ?_
  rintro r _ m ⟨hr, rfl⟩
  refine Yields.pure ?_
  simpa using Enclosed.intro hl he hr

/-- Looking for a lambda takes nothing. -/
theorem opensLambda_still (i : Input) (a : Bool) (j : Input)
    (h : ((opensLambda i).map fun b => (b, i)) = .ok (a, j)) : j = i := by
  cases ho : opensLambda i with
  | error e =>
      rw [ho] at h
      cases h
  | ok b =>
      rw [ho] at h
      cases h
      rfl

include hexpression htype hinterpolation in
theorem primary_yields {depth : Int} {i : Input} :
    (primary settings inner depth).Yields i (Primary settings.file) := by
  refine Yields.peek_bind ?_
  have step_current : i.current.kind ≠ .endOfInput →
      step.Yields i fun ts t => (ts = [i.current] ∧ t = i.current) ∧ i.current.IsWritten :=
    fun hk => Yields.step hk fun hw => ⟨⟨rfl, rfl⟩, hw⟩
  split
  · next hk => exact textLiteral_yields hinterpolation (.inl hk)
  · next hk => exact textLiteral_yields hinterpolation (.inr hk)
  · next hk =>
      refine Yields.bind (step_current (by simp [hk])) ?_
      rintro _ _ j ⟨⟨rfl, rfl⟩, hw⟩
      refine Yields.bind (R := fun us v => us = [] ∧ numberValue i.current = .ok v)
        (Yields.lift fun v hv => ⟨rfl, hv⟩) ?_
      rintro v _ k ⟨rfl, hv⟩
      exact Yields.pure (.single (.number (numberValue_number hw hk hv)))
  · next hk =>
      refine Yields.bind (step_current (by simp [hk])) ?_
      rintro _ _ j ⟨⟨rfl, rfl⟩, -⟩
      exact Yields.pure (.single (.boolean hk))
  · next hk =>
      refine Yields.look_bind (opensLambda_still i) ?_
      intro isLambda
      refine Yields.ite ?_ ?_
      · intro _
        exact lambda_yields hexpression htype
      · intro _
        exact (group_yields hexpression hk).mono fun _ _ h => .group h
  · exact letIn_yields hexpression htype
  · next hk =>
      refine Yields.bind (step_current (by simp [hk])) ?_
      rintro _ _ j ⟨⟨rfl, rfl⟩, -⟩
      exact Yields.pure (.single (.identifier hk))
  · exact Yields.failAt

/-! ## Applications, pipelines, assertions -/

include hexpression htype hinterpolation

theorem application_yields {depth : Int} {i : Input} :
    (application settings inner depth).Yields i (Application settings.file) := by
  have hprimary : ∀ i, (primary settings inner depth).Yields i (Primary settings.file) :=
    fun i => primary_yields hexpression htype hinterpolation
  refine Yields.bind (hprimary i) ?_
  intro function ts j hf
  refine Yields.bind (repeated_yields hprimary) ?_
  intro arguments us k ha
  refine Yields.pure ?_
  rw [List.append_nil]
  cases ha with
  | nil =>
      rw [List.append_nil]
      exact .alone hf
  | cons h hs => exact .applied hf (.cons h hs) (by simp)

theorem pipeline_yields {depth : Int} {i : Input} :
    (pipeline settings inner depth).Yields i (Pipeline settings.file) := by
  refine Yields.bind (separated_yields_plain (by simp)
    fun i => application_yields hexpression htype hinterpolation) ?_
  intro stages ts j h
  refine Yields.pure (.stages ?_)
  rw [List.append_nil]
  exact h.joined (fun _ => rfl) fun _ _ _ => rfl

theorem asserted_yields {depth : Int} {i : Input} :
    (asserted settings inner depth).Yields i (Expression settings.file) := by
  refine Yields.bind (pipeline_yields hexpression htype hinterpolation) ?_
  intro e ts j he
  refine Yields.accept_ite (by simp) ?_ ?_
  · intro mark k hm
    refine Yields.bind (htype k) ?_
    intro t us l ht
    refine Yields.pure ?_
    simpa using Expression.assertion he hm ht
  · refine Yields.pure ?_
    rw [List.append_nil]
    exact .pipeline he

end Productions

/-- The readers inside, where some levels are left. -/
def Inner.within (settings : Settings) (levels : Nat) (depth : Int) : Inner where
  expression := expressionWithin settings levels depth
  type := typeWithin settings.maxNesting levels
  interpolation start cs :=
    complete (expressionWithin settings levels (depth + 1)) .endOfInput (tokensOf start cs)

/-- They are what an expression is read with. -/
theorem expressionWithin_succ (settings : Settings) (levels : Nat) (depth : Int) :
    expressionWithin settings (levels + 1) depth
      = asserted settings (.within settings levels depth) depth := rfl

/-- The tokens that an expression is read from have a derivation. -/
theorem expressionWithin_yields (settings : Settings) (levels : Nat) (depth : Int) (i : Input) :
    (expressionWithin settings levels depth).Yields i (Expression settings.file) := by
  induction levels generalizing depth i with
  | zero => exact Yields.peek_bind Yields.failAt
  | succ levels ih =>
      rw [expressionWithin_succ]
      refine asserted_yields (fun i => ih depth i)
        (fun i => typeWithin_yields settings.maxNesting levels i) ?_
      intro start cs e he
      exact complete_yields (tokensOf_isLexed start cs) (fun i => ih (depth + 1) i) he

end TypedPrompt.Reading

namespace TypedPrompt.Expr

open Grammar

/-- A source that is read can be cut into tokens, which have a derivation of the tree. -/
theorem exists_derivation_of_read {settings : Reading.Settings} {context : Context}
    {source : String} {e : Expr} (h : read settings context source = .ok e) :
    ∃ eof ts, tokensOf context.start source.toList = Tokens.ofList eof ts
      ∧ Expression settings.file ts e :=
  Reading.complete_yields (tokensOf_isLexed _ _)
    (fun i => Reading.expressionWithin_yields settings _ context.depth i) h

end TypedPrompt.Expr
