/-
# `Proofs.Reading.AcceptedExpressions` — an expression that has a derivation is read

The reader is greedy, and each production leaves what may follow it: a primary and
an application leave a `Tail` of the expressions around them, and an expression
leaves a `Tail` of one expression less, since it takes its own assertion.  What
stands behind the outermost expression must end it (`endsExpression`).

The levels and the templates that are left are measured by weight.  Whatever is
read one level further down weighs less, and so does the body of an interpolation,
which is shorter than the literal it stands in.
-/
import TypedPrompt.Proofs.Reading.AcceptedTypes
import TypedPrompt.Proofs.Reading.Brackets

namespace TypedPrompt

/-- Stands behind an expression, and is not a part of it. -/
def Kind.endsExpression : Kind → Bool
  | .symbol .rightParen | .symbol .comma | .keyword .inWord | .endOfInput => true
  | _ => false

theorem Kind.endsExpression_cases {k : Kind} (h : k.endsExpression = true) :
    k = .symbol .rightParen ∨ k = .symbol .comma ∨ k = .keyword .inWord ∨ k = .endOfInput := by
  unfold endsExpression at h
  split at h
  · exact .inl rfl
  · exact .inr (.inl rfl)
  · exact .inr (.inr (.inl rfl))
  · exact .inr (.inr (.inr rfl))
  · cases h

/-- Makes an expression go on behind a primary. -/
def Kind.continuesExpression (k : Kind) : Bool :=
  Reading.beginsPrimary k || k == .symbol .pipe || k == .symbol .doubleColon

namespace Reading

open Reader Grammar

/-! ## What comes next -/

section Next

variable {file : String} {ts us rest : List Token} {m : Nat}

theorem single_nextKind {t : Token} {e : Expr} (h : Single file t e) :
    beginsPrimary t.kind = true := by
  cases h with
  | text h _ | template h _ _ _ => rcases h with h | h <;> rw [h] <;> rfl
  | number h =>
      cases h with
      | integer h => rw [h.number]; rfl
      | real h _ => rw [h]; rfl
  | boolean h | identifier h => rw [h]; rfl

/-- An application begins with a token that can begin a primary. -/
theorem start_nextKind (h : Start file m ts) : beginsPrimary (nextKind ts) = true := by
  cases h with
  | closed h _ =>
      cases h with
      | single h => exact single_nextKind h
      | group h =>
          cases h with
          | intro hl _ _ => rw [List.cons_append, nextKind_cons, hl]; rfl
  | header h _ =>
      cases h with
      | lambda hl _ _ _ _ _ | letIn hl _ _ _ => rw [List.cons_append, nextKind_cons, hl]; rfl

theorem start_ne_nil (h : Start file m ts) : ∃ t us, ts = t :: us := by
  have hk := start_nextKind h
  cases ts with
  | nil => cases hk
  | cons t us => exact ⟨t, us, rfl⟩

theorem tail_nextKind (h : Tail file m us) :
    us = [] ∨ (nextKind us).continuesExpression = true := by
  cases h with
  | nil => exact .inl rfl
  | argument h => exact .inr (by simp [Kind.continuesExpression, start_nextKind h])
  | stage hm _ => exact .inr (by simp [Kind.continuesExpression, hm])
  | assertion hm _ _ => exact .inr (by simp [Kind.continuesExpression, hm])

/-- Behind a primary, neither a type goes on nor does a parenthesis turn out to have
opened the parameters of a lambda. -/
theorem tail_next (h : Tail file m us) (hrest : (nextKind rest).endsExpression = true) :
    (nextKind (us ++ rest)).continuesType = false
      ∧ (nextKind (us ++ rest)).followsParameters = false := by
  have ends : ∀ {k : Kind}, k.endsExpression = true →
      k.continuesType = false ∧ k.followsParameters = false := by
    intro k hk
    rcases Kind.endsExpression_cases hk with rfl | rfl | rfl | rfl <;> exact ⟨rfl, rfl⟩
  have goes_on : ∀ {k : Kind}, k.continuesExpression = true →
      k.continuesType = false ∧ k.followsParameters = false := by
    intro k hk
    cases k with
    | symbol s => cases s <;> first | exact ⟨rfl, rfl⟩ | cases hk
    | _ => exact ⟨rfl, rfl⟩
  rcases nextKind_append_cases us rest with ⟨rfl, h'⟩ | h'
  · rw [h']
    exact ends hrest
  · rcases tail_nextKind h with rfl | hk
    · exact ends hrest
    · rw [h']
      exact goes_on hk

/-- What ends an expression does not make it go on. -/
theorem ends_next (hrest : (nextKind rest).endsExpression = true) :
    beginsPrimary (nextKind rest) = false ∧ nextKind rest ≠ .symbol .pipe
      ∧ nextKind rest ≠ .symbol .doubleColon := by
  rcases Kind.endsExpression_cases hrest with h | h | h | h <;> rw [h] <;>
    exact ⟨rfl, by simp, by simp⟩

/-- What an application leaves does not begin another argument. -/
theorem not_start_of_stops (hb : beginsPrimary (nextKind (us ++ rest)) = false)
    (h : Start file m us) : False := by
  obtain ⟨t, vs, rfl⟩ := start_ne_nil h
  have hk := start_nextKind h
  rw [List.cons_append, nextKind_cons] at hb
  rw [nextKind_cons, hb] at hk
  cases hk

end Next

/-! ## What the readers one level further down do -/

/-- Expressions of a weight are read, up to what the expressions around them may go
on with. -/
def AcceptsExpressions (file : String) (weight : Nat) (r : Reader Expr) : Prop :=
  ∀ (eof : EndToken) (m : Nat) (ts rest : List Token), Start file m ts →
    Token.weights ts ≤ weight → (nextKind rest).endsExpression = true →
    ∃ us, us.length < ts.length ∧ (Tail file m us ∧ Token.weights us ≤ weight) ∧
      Leaves eof r (ts ++ rest) (us ++ rest) fun _ => True

theorem AcceptsExpressions.expression {file : String} {weight : Nat} {r : Reader Expr}
    (h : AcceptsExpressions file weight r) {eof : EndToken} {ts rest : List Token} {e : Expr}
    (he : Expression file ts e) (hw : Token.weights ts ≤ weight)
    (hrest : (nextKind rest).endsExpression = true) :
    Leaves eof r (ts ++ rest) rest fun _ => True := by
  obtain ⟨us, -, ⟨ht, -⟩, hl⟩ := h eof 0 ts rest he.start_nil hw hrest
  cases ht
  exact hl

theorem AcceptsExpressions.whole {file : String} {weight : Nat} {r : Reader Expr}
    (h : AcceptsExpressions file weight r) (eof : EndToken) {ts : List Token} {e : Expr}
    (he : Expression file ts e) (hw : Token.weights ts ≤ weight) :
    Leaves eof r ts [] fun _ => True := by
  have hl : Leaves eof r (ts ++ []) [] fun _ => True := h.expression he hw rfl
  rwa [List.append_nil] at hl

/-- Bodies of interpolations of a weight are read. -/
def AcceptsBodies (file : String) (weight : Nat)
    (read : Position → List Char → Except Failure Expr) : Prop :=
  ∀ (start : Position) (cs : List Char) (eof : Token) (ts : List Token) (e : Expr),
    tokensOf start cs = Tokens.ofList eof ts → Expression file ts e →
    Token.weights ts ≤ weight → ∃ e', read start cs = .ok e'

section Productions

variable {eof : EndToken} {settings : Settings} {inner : Inner} {weight : Nat} {depth : Int}
  (hexpression : AcceptsExpressions settings.file weight inner.expression)
  (htype : AcceptsTypes weight inner.type)
  (hbody : AcceptsBodies settings.file weight inner.interpolation)
  {ts us rest : List Token} {m : Nat}

/-! ## Lambdas and lets -/

include htype in
theorem optionalType_leaves {o : Option Ty} (h : Preceded .colon Annotation ts o)
    (hw : Token.weights ts ≤ weight) (hrest : (nextKind rest).continuesType = false)
    (hcolon : nextKind rest ≠ .symbol .colon) :
    Leaves eof (optionalType inner) (ts ++ rest) rest fun _ => True := by
  cases h with
  | none => exact Leaves.accept_ite_no hcolon (Leaves.pure trivial)
  | some hm h =>
      rw [Token.weights_cons] at hw
      refine Leaves.accept_ite_yes hm ?_
      refine Leaves.bind (htype.annotation h (by omega) hrest) fun _ _ => ?_
      exact Leaves.pure trivial

include hexpression htype in
/-- A parameter is read if no parameter before it has its name. -/
theorem parameter_leaves {before : List (Parameter Expr)} {p : Parameter Expr}
    (h : LambdaParameter settings.file ts p) (hw : Token.weights ts ≤ weight)
    (hnew : p.name ∉ before.map Parameter.name)
    (hrest : nextKind rest = .symbol .comma ∨ nextKind rest = .symbol .rightParen) :
    Leaves eof (parameter inner before) (ts ++ rest) rest (·.name = p.name) := by
  have hstop : (nextKind rest).continuesType = false ∧ nextKind rest ≠ .symbol .colon
      ∧ nextKind rest ≠ .symbol .equals ∧ (nextKind rest).endsExpression = true := by
    rcases hrest with h | h <;> rw [h] <;> simp [Kind.continuesType, Kind.endsExpression]
  cases h with
  | @intro n ts us type default hn ht hd =>
      simp only [Token.weights_cons, Token.weights_append] at hw
      simp only [List.cons_append, List.append_assoc]
      refine Leaves.bind (Leaves.expect hn) ?_
      rintro _ rfl
      refine Leaves.ite_neg (by simpa using hnew) ?_
      cases hd with
      | none =>
          refine Leaves.bind (optionalType_leaves htype ht (by omega) hstop.1 hstop.2.1)
            fun _ _ => ?_
          exact Leaves.accept_ite_no hstop.2.2.1 (Leaves.pure rfl)
      | some hq he =>
          rw [Token.weights_cons] at hw
          refine Leaves.bind (optionalType_leaves htype ht (by omega)
            (by rw [List.cons_append, nextKind_cons, hq]; rfl) (by simp [hq])) fun _ _ => ?_
          refine Leaves.accept_ite_yes hq ?_
          refine Leaves.bind (hexpression.expression he (by omega) hstop.2.2.2) fun _ _ => ?_
          exact Leaves.pure rfl

include hexpression htype in
theorem binding_leaves {before : List (Binding Expr)} {b : Binding Expr}
    (h : LetBinding settings.file ts b) (hw : Token.weights ts ≤ weight)
    (hnew : b.name ∉ before.map Binding.name)
    (hrest : nextKind rest = .symbol .comma ∨ nextKind rest = .keyword .inWord) :
    Leaves eof (binding inner before) (ts ++ rest) rest (·.name = b.name) := by
  have hend : (nextKind rest).endsExpression = true := by
    rcases hrest with h | h <;> rw [h] <;> rfl
  cases h with
  | @intro n q ts us type value hn ht hq hv =>
      simp only [Token.weights_cons, Token.weights_append] at hw
      simp only [List.cons_append, List.append_assoc]
      refine Leaves.bind (Leaves.expect hn) ?_
      rintro _ rfl
      refine Leaves.ite_neg (by simpa using hnew) ?_
      refine Leaves.bind (optionalType_leaves htype ht (by omega)
        (by rw [nextKind_cons, hq]; rfl) (by simp [hq])) fun _ _ => ?_
      refine Leaves.bind (Leaves.expect hq) fun _ _ => ?_
      refine Leaves.bind (hexpression.expression hv (by omega) hend) fun _ _ => ?_
      exact Leaves.pure rfl

include hexpression htype in
theorem lambda_leaves {l r arrow : Token} {ps rs : List Token} {params : List (Parameter Expr)}
    {returns : Option Ty} (hl : l.kind = .symbol .leftParen)
    (hps : Listed (.symbol .comma) (LambdaParameter settings.file) ps params)
    (hd : (params.map Parameter.name).Nodup) (hr : r.kind = .symbol .rightParen)
    (hret : Preceded .colon Annotation rs returns) (ha : arrow.kind = .symbol .arrow)
    (hps' : Token.weights ps ≤ weight) (hrs : Token.weights rs ≤ weight)
    (hbody : Leaves eof inner.expression us rest fun _ => True) :
    Leaves eof (lambda settings inner) (l :: (ps ++ r :: (rs ++ arrow :: us))) rest
      fun _ => True := by
  refine Leaves.bind (Leaves.expect hl) ?_
  rintro _ rfl
  refine listed_leaves hps (fun _ _ hp => hp.nextKind_eq) hr (by simp) ?_ ?_
  · intro hps
    refine separated_leaves_distinct Parameter.name (fun _ _ hp => hp.nextKind_eq) ?_ hps hd hr
      (by simp)
    intro before vs p more hp hle hnew hmore
    exact parameter_leaves hexpression htype hp (by omega) hnew hmore
  · intro params
    refine Leaves.bind (Leaves.expect hr) fun _ _ => ?_
    refine Leaves.bind (optionalType_leaves htype hret hrs
      (by rw [nextKind_cons, ha]; rfl) (by simp [ha])) fun _ _ => ?_
    refine Leaves.bind (Leaves.expect ha) fun _ _ => ?_
    exact Leaves.bind hbody fun _ _ => Leaves.pure trivial

include hexpression htype in
theorem letIn_leaves {l i : Token} {bs : List Token} {bindings : List (Binding Expr)}
    (hl : l.kind = .keyword .letWord)
    (hbs : Separated (.symbol .comma) (LetBinding settings.file) bs bindings)
    (hd : (bindings.map Binding.name).Nodup) (hi : i.kind = .keyword .inWord)
    (hw : Token.weights bs ≤ weight)
    (hbody : Leaves eof inner.expression us rest fun _ => True) :
    Leaves eof (letIn settings inner) (l :: (bs ++ i :: us)) rest fun _ => True := by
  refine Leaves.bind (Leaves.expect hl) fun _ _ => ?_
  refine Leaves.bind (separated_leaves_distinct Binding.name (fun _ _ hb => hb.nextKind_eq) ?_
    hbs hd hi (by simp)) fun bindings _ => ?_
  · intro before vs b more hb hle hnew hmore
    exact binding_leaves hexpression htype hb (by omega) hnew hmore
  · refine Leaves.bind (Leaves.expect hi) fun _ _ => ?_
    exact Leaves.bind hbody fun _ _ => Leaves.pure trivial

/-! ## Templates -/

include hbody in
theorem part_accepts {t : Token} {piece : Piece} {pieces : List Piece} {p : Part Expr}
    (h : PartOf settings.file piece p)
    (hs : Piece.Split (textStart t) t.text.toList pieces) (hm : piece ∈ pieces)
    (hw : t.text.toList.length ≤ weight) (hdepth : depth < settings.maxDepth) :
    ∃ p', part settings inner depth t piece = .ok p' := by
  cases h with
  | text => exact ⟨_, rfl⟩
  | @body start cs eof ts e hblank hts he =>
      have hlen := hs.body_length hm
      have hle := weights_tokensOf_le hts
      obtain ⟨e', he'⟩ := hbody start cs eof ts e hts he (by omega)
      refine ⟨.embed e', ?_⟩
      simp only [part]
      rw [if_neg hblank, if_neg (by omega), he']
      rfl

omit hbody in
theorem textLiteral_leaves_text {t : Token} (hm : ¬ Piece.openMark <:+: t.text.toList) :
    Leaves eof (textLiteral settings inner depth t) (t :: us) us fun _ => True := by
  refine Leaves.ite_neg (by rwa [Piece.hasOpenMark_iff]) ?_
  exact Leaves.bind Leaves.step fun _ _ => Leaves.pure trivial

omit hbody in
/-- A literal with interpolations is read where all of them are. -/
theorem textLiteral_leaves_parts {t : Token} {parts : List (Part Expr)}
    (hm : Piece.openMark <:+: t.text.toList)
    (h : (Piece.pieces (textStart t) t.text.toList).mapM (part settings inner depth t)
      = .ok parts) :
    Leaves eof (textLiteral settings inner depth t) (t :: us) us
      (· = .template (place settings t) parts) := by
  refine Leaves.ite_pos (Piece.hasOpenMark_iff.mpr hm) (Leaves.bind Leaves.step ?_)
  rintro _ rfl
  refine Leaves.bind (Leaves.lift h rfl) ?_
  rintro _ rfl
  exact Leaves.pure rfl

include hbody in
theorem textLiteral_leaves_template {t : Token} {pieces : List Piece} {parts : List (Part Expr)}
    (ht : IsTextLiteral t) (hm : Piece.openMark <:+: t.text.toList)
    (hs : Piece.Split (textStart t) t.text.toList pieces)
    (hparts : List.Forall₂ (PartOf settings.file) pieces parts) (hw : t.weight ≤ weight + 1)
    (hdepth : depth < settings.maxDepth) :
    Leaves eof (textLiteral settings inner depth t) (t :: us) us fun _ => True := by
  have hlen : t.text.toList.length ≤ weight := by
    rw [Token.weight, if_pos (show t.kind = .string ∨ t.kind = .template from ht)] at hw
    omega
  have hpieces : ∀ piece ∈ pieces, ∃ p, part settings inner depth t piece = .ok p := by
    intro piece hpiece
    obtain ⟨p, -, hp⟩ := forall₂_mem_left hparts hpiece
    exact part_accepts hbody hp hs hpiece hlen hdepth
  obtain ⟨ps, hps⟩ := exists_mapM_eq_ok hpieces
  rw [← Piece.pieces_of_split hs] at hps
  exact (textLiteral_leaves_parts hm hps).mono fun _ _ => trivial

/-! ## Primaries -/

theorem numberValue_of_denotes {t : Token} {v : Value} (h : Denotes t v) :
    ∃ v', numberValue t = .ok v' := by
  unfold numberValue
  have he : (numeral t).exponent = none := rfl
  cases h with
  | integer h =>
      obtain ⟨hf, v, hv⟩ := integer_of_isInteger h
      have hi : (numeral t).isIntegral = true := by
        simp [Numeral.isIntegral, hf, he]
      simp only [hi, if_true, hv]
      exact ⟨_, rfl⟩
  | real _ hf =>
      have hi : (numeral t).isIntegral = false := by
        cases hf' : (numeral t).fraction with
        | none =>
            rw [hf'] at hf
            cases hf
        | some ds => simp [Numeral.isIntegral, hf']
      simp only [hi]
      exact ⟨_, rfl⟩

include hbody in
theorem single_leaves {t : Token} {e : Expr} (h : Single settings.file t e)
    (hw : t.weight ≤ weight + 1) (hdepth : depth < settings.maxDepth) :
    Leaves eof (primary settings inner depth) (t :: us) us fun _ => True := by
  refine Leaves.peek_bind ?_
  cases h with
  | text ht hm =>
      rcases ht with hk | hk <;> rw [hk] <;> exact textLiteral_leaves_text hm
  | template ht hm hs hp =>
      have hl : Leaves eof (textLiteral settings inner depth t) (t :: us) us fun _ => True :=
        textLiteral_leaves_template hbody ht hm hs hp hw hdepth
      rcases ht with hk | hk <;> rw [hk] <;> exact hl
  | number h =>
      obtain ⟨v, hv⟩ := numberValue_of_denotes h
      have hk : t.kind = .number := by
        cases h with
        | integer h => exact h.number
        | real h _ => exact h
      rw [hk]
      refine Leaves.bind Leaves.step fun _ _ => ?_
      refine Leaves.bind (Leaves.lift (Q := fun _ => True) hv trivial) fun _ _ => ?_
      exact Leaves.pure trivial
  | boolean hk =>
      rw [hk]
      exact Leaves.bind Leaves.step fun _ _ => Leaves.pure trivial
  | identifier hk =>
      rw [hk]
      exact Leaves.bind Leaves.step fun _ _ => Leaves.pure trivial

include hexpression in
theorem group_leaves {l r : Token} {e : Expr} (he : Expression settings.file ts e)
    (hr : r.kind = .symbol .rightParen) (hw : Token.weights ts ≤ weight) :
    Leaves eof (group inner) (l :: (ts ++ r :: rest)) rest fun _ => True := by
  refine Leaves.bind Leaves.step fun _ _ => ?_
  refine Leaves.bind (hexpression.expression he hw (by rw [nextKind_cons, hr]; rfl)) fun _ _ => ?_
  refine Leaves.bind (Leaves.expect hr) fun _ _ => ?_
  exact Leaves.pure trivial

variable (eof) in
include hexpression hbody in
/-- A primary that ends where its only token or its last bracket ends is read up to
there. -/
theorem primary_leaves_closed (h : ClosedPrimary settings.file ts)
    (hw : Token.weights ts ≤ weight + 1) (hdepth : depth < settings.maxDepth)
    (hrest : (nextKind rest).followsParameters = false) :
    0 < ts.length ∧ Leaves eof (primary settings inner depth) (ts ++ rest) rest fun _ => True := by
  cases h with
  | single h =>
      rw [Token.weights_cons] at hw
      exact ⟨by simp, single_leaves hbody h (by omega) hdepth⟩
  | group h =>
      cases h with
      | @intro l r us e hl he hr =>
          have := l.weight_pos
          simp only [Token.weights_cons, Token.weights_append] at hw
          simp only [List.cons_append, List.append_assoc, List.nil_append]
          have hk := start_nextKind he.start_nil
          have hgroup : opensLambda (Input.ofList eof (l :: (us ++ r :: rest))) = .ok false := by
            refine opensLambda_group he ?_ ?_ hr hrest <;> intro h <;> rw [h] at hk <;> cases hk
          refine ⟨by simp, Leaves.peek_bind ?_⟩
          rw [hl]
          refine Leaves.look_bind hgroup (Leaves.ite_neg (by simp) ?_)
          exact group_leaves hexpression he hr (by omega)

include hexpression htype in
/-- A lambda or a let is read with its body, up to where its body is. -/
theorem primary_leaves_header (h : Header settings.file ts) (hw : Token.weights ts ≤ weight)
    (hbody : Leaves eof inner.expression us rest fun _ => True) :
    Leaves eof (primary settings inner depth) (ts ++ us) rest fun _ => True := by
  cases h with
  | @lambda l r arrow ps rs params returns hl hps hd hr hret ha =>
      simp only [Token.weights_cons, Token.weights_append] at hw
      simp only [List.cons_append, List.append_assoc, List.nil_append]
      have hnext : (nextKind (rs ++ arrow :: us)).followsParameters = true :=
        hret.followsParameters ha
      refine Leaves.peek_bind ?_
      rw [hl]
      refine Leaves.look_bind (opensLambda_parameters hps hr hnext) (Leaves.ite_pos rfl ?_)
      exact lambda_leaves hexpression htype hl hps hd hr hret ha (by omega) (by omega) hbody
  | @letIn l i bs bindings hl hbs hd hi =>
      simp only [Token.weights_cons, Token.weights_append] at hw
      simp only [List.cons_append, List.append_assoc, List.nil_append]
      refine Leaves.peek_bind ?_
      rw [hl]
      exact letIn_leaves hexpression htype hl hbs hd hi (by omega) hbody

include hexpression htype hbody

variable (eof) in
/-- A primary leaves what may follow it inside the expressions around it. -/
theorem primary_leaves (h : Start settings.file m ts) (hw : Token.weights ts ≤ weight + 1)
    (hdepth : depth < settings.maxDepth) (hrest : (nextKind rest).endsExpression = true) :
    ∃ us, us.length < ts.length
      ∧ (Tail settings.file (m + 1) us ∧ Token.weights us ≤ weight + 1)
      ∧ Leaves eof (primary settings inner depth) (ts ++ rest) (us ++ rest) fun _ => True := by
  cases h with
  | @closed _ cs us hc ht =>
      rw [Token.weights_append] at hw
      obtain ⟨hlen, hl⟩ := primary_leaves_closed eof hexpression hbody hc (by omega) hdepth
        (tail_next ht hrest).2
      refine ⟨us, by simp; omega, ⟨ht, by omega⟩, ?_⟩
      rw [List.append_assoc]
      exact hl
  | @header _ hs us hh hus =>
      rw [Token.weights_append] at hw
      obtain ⟨t, vs, rfl⟩ := start_ne_nil hus
      have := t.weight_pos
      have hhs : 1 ≤ Token.weights hs := by
        cases hh with
        | lambda | letIn =>
            rw [Token.weights_cons]
            exact Nat.le_trans (Token.weight_pos _) (Nat.le_add_right _ _)
      rw [Token.weights_cons] at hw
      obtain ⟨ws, hlen, ⟨ht, hws⟩, hbody⟩ := hexpression eof _ (t :: vs) rest hus
        (by rw [Token.weights_cons]; omega) hrest
      refine ⟨ws, by rw [List.length_append]; omega, ⟨ht, by omega⟩, ?_⟩
      rw [List.append_assoc]
      exact primary_leaves_header hexpression htype hh (by omega) hbody

/-! ## Applications, pipelines, assertions -/

variable (eof) in
theorem application_leaves (h : Start settings.file m ts) (hw : Token.weights ts ≤ weight + 1)
    (hdepth : depth < settings.maxDepth) (hrest : (nextKind rest).endsExpression = true) :
    ∃ us, us.length < ts.length
      ∧ ((Tail settings.file (m + 1) us ∧ Token.weights us ≤ weight + 1)
        ∧ beginsPrimary (nextKind (us ++ rest)) = false)
      ∧ Leaves eof (application settings inner depth) (ts ++ rest) (us ++ rest)
        fun _ => True := by
  have argument : ∀ us, Tail settings.file (m + 1) us ∧ Token.weights us ≤ weight + 1 →
      beginsPrimary (nextKind us) = true →
      ∃ vs, vs.length < us.length
        ∧ (Tail settings.file (m + 1) vs ∧ Token.weights vs ≤ weight + 1)
        ∧ Leaves eof (primary settings inner depth) (us ++ rest) (vs ++ rest) fun _ => True := by
    rintro us ⟨ht, hw⟩ hb
    cases ht with
    | nil => cases hb
    | argument hs => exact primary_leaves eof hexpression htype hbody hs hw hdepth hrest
    | stage hm _ | assertion hm _ _ =>
        rw [nextKind_cons, hm] at hb
        cases hb
  obtain ⟨us, hlen, htail, hf⟩ := primary_leaves eof hexpression htype hbody h hw hdepth hrest
  obtain ⟨vs, hle, htail', hstop, hargs⟩ :=
    repeated_leaves argument (ends_next hrest).1 rfl htail
  refine ⟨vs, by omega, ⟨htail', hstop⟩, ?_⟩
  refine Leaves.bind hf fun _ _ => ?_
  exact Leaves.bind hargs fun _ _ => Leaves.pure trivial

variable (eof) in
theorem pipeline_leaves (h : Start settings.file m ts) (hw : Token.weights ts ≤ weight + 1)
    (hdepth : depth < settings.maxDepth) (hrest : (nextKind rest).endsExpression = true) :
    ∃ us, us.length < ts.length
      ∧ ((Tail settings.file (m + 1) us ∧ Token.weights us ≤ weight + 1)
        ∧ beginsPrimary (nextKind (us ++ rest)) = false)
      ∧ nextKind (us ++ rest) ≠ .symbol .pipe
      ∧ Leaves eof (pipeline settings inner depth) (ts ++ rest) (us ++ rest) fun _ => True := by
  have stage : ∀ ts, Start settings.file m ts ∧ Token.weights ts ≤ weight + 1 →
      ∃ us, us.length < ts.length
        ∧ ((Tail settings.file (m + 1) us ∧ Token.weights us ≤ weight + 1)
          ∧ beginsPrimary (nextKind (us ++ rest)) = false)
        ∧ Leaves eof (application settings inner depth) (ts ++ rest) (us ++ rest)
          fun _ => True := by
    rintro ts ⟨h, hw⟩
    exact application_leaves eof hexpression htype hbody h hw hdepth hrest
  have next : ∀ s us, (Tail settings.file (m + 1) (s :: us)
        ∧ Token.weights (s :: us) ≤ weight + 1)
      ∧ beginsPrimary (nextKind (s :: us ++ rest)) = false → s.kind = .symbol .pipe →
      Start settings.file m us ∧ Token.weights us ≤ weight + 1 := by
    rintro s us ⟨⟨ht, hw⟩, hb⟩ hs
    rw [Token.weights_cons] at hw
    cases ht with
    | argument h => exact (not_start_of_stops hb h).elim
    | stage _ h => exact ⟨h, by omega⟩
    | assertion hm _ _ =>
        rw [hm] at hs
        cases hs
  have hend : nextKind ts ≠ .endOfInput := by
    intro hk
    have := start_nextKind h
    rw [hk] at this
    cases this
  obtain ⟨us, hlen, htail, hstop, hl⟩ :=
    separated_leaves_plain stage next (ends_next hrest).2.1 ⟨h, hw⟩ hend
  refine ⟨us, hlen, htail, hstop, ?_⟩
  exact Leaves.bind hl fun _ _ => Leaves.pure trivial

/-- An expression takes its own assertion, and leaves what may follow inside the
expressions around it. -/
theorem asserted_leaves (h : Start settings.file m ts) (hw : Token.weights ts ≤ weight + 1)
    (hdepth : depth < settings.maxDepth) (hrest : (nextKind rest).endsExpression = true) :
    ∃ us, us.length < ts.length ∧ (Tail settings.file m us ∧ Token.weights us ≤ weight + 1)
      ∧ Leaves eof (asserted settings inner depth) (ts ++ rest) (us ++ rest) fun _ => True := by
  obtain ⟨us, hlen, ⟨⟨ht, hw'⟩, hb⟩, hp, hl⟩ :=
    pipeline_leaves eof hexpression htype hbody h hw hdepth hrest
  cases ht with
  | nil =>
      refine ⟨[], hlen, ⟨.nil, by simp⟩, Leaves.bind hl fun _ _ => ?_⟩
      exact Leaves.accept_ite_no (ends_next hrest).2.2 (Leaves.pure trivial)
  | argument h => exact (not_start_of_stops hb h).elim
  | stage hm _ => exact absurd hm hp
  | @assertion _ mark as vs t hm ha ht =>
      have := mark.weight_pos
      simp only [Token.weights_cons, Token.weights_append] at hw'
      rw [List.length_cons, List.length_append] at hlen
      rw [List.cons_append, List.append_assoc] at hl
      refine ⟨vs, by omega, ⟨ht, by omega⟩, Leaves.bind hl fun _ _ => ?_⟩
      refine Leaves.accept_ite_yes hm ?_
      refine Leaves.bind (htype.annotation ha (by omega) (tail_next ht hrest).1) fun _ _ => ?_
      exact Leaves.pure trivial

end Productions

/-- What all tokens of a source are read as. -/
theorem complete_of_leaves {α : Type} {eof : EndToken} {r : Reader α} (what : Expectation)
    {ts : List Token} {Q : α → Prop} (h : Leaves eof r ts [] Q) :
    ∃ a, complete r what (Tokens.ofList eof.val ts) = .ok a ∧ Q a := by
  obtain ⟨a, ha, hq⟩ := h
  refine ⟨a, ?_, hq⟩
  have hend : (Input.ofList eof []).current.kind = .endOfInput := eof.property
  simp only [complete, Input.ofTokens_ofList, ha, Bind.bind, Except.bind, Reader.expect, peek,
    StateT.bind, hend, if_true]
  rfl

/-- Expressions are read where there are as many levels and templates left as they
weigh. -/
theorem expressionWithin_accepts (settings : Settings) (levels : Nat) (depth : Int) (weight : Nat)
    (hl : weight ≤ levels) (hd : (weight : Int) ≤ settings.maxDepth - depth) :
    AcceptsExpressions settings.file weight (expressionWithin settings levels depth) := by
  induction levels generalizing depth weight with
  | zero =>
      intro eof m ts rest h hw _
      obtain ⟨t, us, rfl⟩ := start_ne_nil h
      have := t.weight_pos
      rw [Token.weights_cons] at hw
      omega
  | succ levels ih =>
      intro eof m ts rest h hw hrest
      obtain ⟨t, us, rfl⟩ := start_ne_nil h
      have := t.weight_pos
      cases weight with
      | zero =>
          rw [Token.weights_cons] at hw
          omega
      | succ weight =>
          have htype : AcceptsTypes weight (typeWithin settings.maxNesting levels) := by
            intro eof ts rest hs hw hrest
            exact typeWithin_accepts settings.maxNesting levels eof ts rest hs (by omega) hrest
          have hbody : AcceptsBodies settings.file weight fun start cs =>
              complete (expressionWithin settings levels (depth + 1)) .endOfInput
                (tokensOf start cs) := by
            intro start cs eof ts e hts he hw
            have hr := ih (depth + 1) weight (by omega) (by omega)
            simp only [hts]
            obtain ⟨e', he', -⟩ := complete_of_leaves .endOfInput
              (hr.whole ⟨eof, kind_eof_of_tokensOf hts⟩ he hw)
            exact ⟨e', he'⟩
          exact asserted_leaves (ih depth weight (by omega) (by omega)) htype hbody h hw
            (by omega) hrest

end Reading

end TypedPrompt
