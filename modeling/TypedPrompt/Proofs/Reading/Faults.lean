/-
# `Proofs.Reading.Faults` — an interpolation that is never closed is in a literal

Only a literal can be at fault for an interpolation that is never closed.  It is not
always the one that is being read: the body of an interpolation is a source of its own,
with literals of its own.  `HoldsUnclosed` follows a literal into its bodies.

`Reader.Blames` says of a reader that it leaves none but tokens that were there, and that
if it fails for such an interpolation, then one of the tokens holds it.  There is one
rule for each primitive and one lemma for each production again; most have nothing to
show for a production but which readers it is made of.
-/
import TypedPrompt.Proofs.Correspondence
import TypedPrompt.Proofs.Reading.Counting
import TypedPrompt.Proofs.Reading.Grammar
import TypedPrompt.Reading.Source

namespace TypedPrompt

open Reading Grammar

/-- An interpolation that is never closed is in the text of a literal, or in the text of a
literal in one of its bodies; `p` is the place of that literal. -/
inductive HoldsUnclosed : Token → Position → Prop where
  | own {t : Token} :
      IsTextLiteral t → Piece.HasUnclosed t.text.toList → HoldsUnclosed t t.start
  | inside {t u : Token} {before body : List Char} {p : Position} :
      IsTextLiteral t → Piece.HasBody t.text.toList before body →
      u ∈ (tokensOf ((textStart t).after (before ++ Piece.openMark)) body).toList →
      HoldsUnclosed u p → HoldsUnclosed t p

/-- The failure is about an interpolation in a literal at this place. -/
def Failure.IsUnclosed (p : Position) (f : Failure) : Prop :=
  f = .syntactic .unclosedInterpolation p

/-- It is the tokens that make it fail, if it fails. -/
def Lexical {α : Type} (x : Except Failure α) : Prop := ∀ f, x = .error f → ∃ e, f = .lexical e

theorem Lexical.bind {α β : Type} {x : Except Failure α} {f : α → Except Failure β}
    (h : Lexical x) (hf : ∀ a, Lexical (f a)) : Lexical (x >>= f) := by
  cases x with
  | ok a => exact hf a
  | error g =>
      rintro _ ⟨⟩
      exact h g rfl

theorem Lexical.ok {α : Type} (a : α) : Lexical (.ok a : Except Failure α) := by
  rintro _ ⟨⟩

namespace Input

/-- The tokens that are left, the one for the end included. -/
def tokens (i : Input) : List Token := i.current :: i.ahead.toList

theorem tokens_ofTokens {ts : Tokens} {i : Input} (h : ofTokens ts = .ok i) :
    i.tokens ⊆ ts.toList := by
  cases ts with
  | cons t rest =>
      cases h
      exact List.Subset.refl _
  | finish t =>
      cases h
      simp [tokens, Tokens.toList]
  | fault e => cases h

theorem tokens_advance {i j : Input} (h : i.advance = .ok j) : j.tokens ⊆ i.tokens :=
  List.Subset.trans (tokens_ofTokens h) (List.subset_cons_self _ _)

theorem ofTokens_lexical (ts : Tokens) : Lexical (ofTokens ts) := by
  intro f h
  cases ts with
  | cons t rest => cases h
  | finish t => cases h
  | fault e =>
      cases h
      exact ⟨e, rfl⟩

/-- Stepping forward fails for the tokens, if it fails. -/
theorem advance_lexical (i : Input) : Lexical i.advance := ofTokens_lexical i.ahead

end Input

namespace Reader

variable {α β : Type}

/-- What is left comes from some tokens, and so does an interpolation that is never closed. -/
def ComesFrom (ts : List Token) : Except Failure (α × Input) → Prop
  | .ok (_, j) => j.tokens ⊆ ts
  | .error f => ∀ p, f.IsUnclosed p → ∃ t ∈ ts, HoldsUnclosed t p

/-- Whatever comes out of a reader comes from the tokens it is run on. -/
def Blames (r : Reader α) : Prop := ∀ i, ComesFrom i.tokens (r i)

namespace ComesFrom

variable {ts us : List Token} {x : Except Failure (α × Input)}

theorem mono (h : ComesFrom ts x) (hts : ts ⊆ us) : ComesFrom us x := by
  cases x with
  | ok a => exact List.Subset.trans h hts
  | error f =>
      intro p hp
      obtain ⟨t, ht, hholds⟩ := h p hp
      exact ⟨t, hts ht, hholds⟩

theorem bind {f : α × Input → Except Failure (β × Input)} (h : ComesFrom ts x)
    (hf : ∀ a j, j.tokens ⊆ ts → ComesFrom ts (f (a, j))) : ComesFrom ts (x >>= f) := by
  cases x with
  | ok a => exact hf a.1 a.2 h
  | error f => exact h

/-- A failure of another kind has no interpolation to blame. -/
theorem error {f : Failure} (h : ∀ p, ¬ f.IsUnclosed p) :
    ComesFrom ts (.error f : Except Failure (α × Input)) :=
  fun p hp => absurd hp (h p)

end ComesFrom

namespace Blames

variable {r s : Reader α}

theorem pure {a : α} : Blames (Pure.pure a : Reader α) := fun _ => List.Subset.refl _

theorem bind {f : α → Reader β} (h : Blames r) (hf : ∀ a, Blames (f a)) : Blames (r >>= f) :=
  fun i => (h i).bind fun a j hj => (hf a j).mono hj

theorem ite {c : Prop} [Decidable c] (hr : Blames r) (hs : Blames s) :
    Blames (if c then r else s) := by
  split
  · exact hr
  · exact hs

theorem peek : Blames peek := fun _ => List.Subset.refl _

/-- The current token is one of those that are left. -/
theorem peek_bind {f : Token → Reader β} (h : ∀ i, ComesFrom i.tokens (f i.current i)) :
    Blames (Reader.peek >>= f) := h

theorem step : Blames step := by
  intro i
  unfold Reader.step
  cases h : i.advance with
  | ok j => exact Input.tokens_advance h
  | error f =>
      obtain ⟨e, rfl⟩ := i.advance_lexical f h
      exact ComesFrom.error nofun

theorem failAt {t : Token} {cause : SyntaxCause} (h : cause ≠ .unclosedInterpolation) :
    Blames (failAt t cause : Reader α) := by
  refine fun _ => ComesFrom.error fun p hp => h ?_
  injection hp

theorem at? (kind : Kind) : Blames (at? kind) := fun _ => List.Subset.refl _

theorem accept (kind : Kind) : Blames (accept kind) :=
  .bind (at? kind) fun _ => .ite (.bind step fun _ => pure) pure

theorem expect (kind : Kind) (what : Expectation) : Blames (expect kind what) :=
  .bind peek fun _ => .ite step (failAt nofun)

theorem ahead (h : Blames r) : Blames (ahead r) := by
  intro i
  have hi := h i
  unfold Reader.ahead
  cases hr : r i with
  | ok a => exact List.Subset.refl _
  | error f =>
      rw [hr] at hi
      exact hi

/-- An answer that does not hang on the input, where no interpolation is to blame. -/
theorem lift {x : Except Failure α} (h : ∀ f p, x = .error f → ¬ f.IsUnclosed p) :
    Blames (lift x) := by
  intro i
  cases x with
  | ok a => exact List.Subset.refl _
  | error f => exact ComesFrom.error fun p => h f p rfl

theorem size : Blames size := fun _ => List.Subset.refl _

theorem separated {sep : Kind} {item : List α → Reader α} (hitem : ∀ as, Blames (item as)) :
    Blames (separated sep item) := by
  refine .bind size fun bound => ?_
  generalize ([] : List α) = before
  induction bound generalizing before with
  | zero => exact .bind (hitem before) fun _ => pure
  | succ bound ih =>
      refine .bind (hitem before) fun _ => .bind (accept sep) fun _ => ?_
      exact .ite (.bind (ih _) fun _ => pure) pure

theorem repeated {begins : Kind → Bool} (hitem : Blames r) : Blames (repeated begins r) := by
  refine .bind size fun bound => ?_
  induction bound with
  | zero => exact pure
  | succ bound ih =>
      exact .bind peek fun _ => .ite (.bind hitem fun _ => .bind ih fun _ => pure) pure

end Blames

end Reader

namespace Reading

open Reader

/-! ## Types -/

section Types

variable {inner : Reader Ty} (hinner : Blames inner)

theorem not_isUnclosed_of_integer {n : Numeral} {f : Failure} {p : Position}
    (h : integer n = .error f) : ¬ f.IsUnclosed p := by
  unfold integer at h
  split at h
  · cases h
  · cases h
    nofun

theorem blames_lengthBound : Blames lengthBound :=
  .bind (.expect _ _) fun _ =>
    .ite (.failAt nofun) (.lift fun _ _ => not_isUnclosed_of_integer)

theorem blames_lengthBounds : Blames lengthBounds := by
  have hnext : Blames nextBound :=
    .bind (.accept _) fun _ => .ite (.bind blames_lengthBound fun _ => .pure) .pure
  exact .bind hnext fun _ => .ite (.bind hnext fun _ => .pure) .pure

theorem blames_temperature (what : Expectation) : Blames (temperature what) :=
  .bind (.expect _ _) fun _ => .pure

theorem blames_promptSettings : Blames promptSettings := by
  refine .bind (.accept _) fun _ => .ite (.bind (.at? _) fun _ => .ite ?_ ?_) .pure
  · refine .bind .step fun _ => .bind (.accept _) fun _ => .ite ?_ .pure
    exact .bind (blames_temperature _) fun _ => .pure
  · exact .bind (blames_temperature _) fun _ => .pure

theorem blames_opensFunctionType : Blames opensFunctionType := by
  refine .bind .step fun _ => .bind .peek fun _ => .ite .pure (.ite ?_ .pure)
  exact .bind .step fun _ => .bind .peek fun _ => .pure

include hinner

theorem blames_namedType : Blames (namedType inner) :=
  .bind (.expect _ _) fun _ => .bind (.accept _) fun _ => .bind (.expect _ _) fun _ =>
    .bind hinner fun _ => .bind (.accept _) fun _ => .pure

theorem blames_fieldType (before : List (Field Ty)) : Blames (fieldType inner before) :=
  .bind (blames_namedType hinner) fun _ => .ite (.bind .peek fun _ => .failAt nofun) .pure

theorem blames_functionType : Blames (functionType inner) := by
  have hparam : Blames (paramType inner) := .bind (blames_namedType hinner) fun _ => .pure
  have hrest : ∀ params : List (Param Ty), Blames (do
      let _ ← expect (.symbol .rightParen) .closeParameterTypes
      let _ ← expect (.symbol .arrow) .resultArrow
      let returns ← inner
      return Ty.function params returns) := fun _ =>
    .bind (.expect _ _) fun _ => .bind (.expect _ _) fun _ => .bind hinner fun _ => .pure
  refine .bind (.expect _ _) fun _ => .bind (.at? _) fun _ => ?_
  exact .ite (.bind .pure hrest) (.bind (.separated fun _ => hparam) hrest)

theorem blames_listType : Blames (listType inner) := by
  refine .bind (.accept _) fun _ => .ite (.bind hinner fun _ => ?_) .pure
  exact .bind blames_lengthBounds fun _ => .bind (.expect _ _) fun _ => .pure

theorem blames_recordType : Blames (recordType inner) := by
  have hrest : ∀ fields : List (Field Ty), Blames (do
      let _ ← expect (.symbol .rightBrace) .closeFields
      return Ty.record fields true) := fun _ => .bind (.expect _ _) fun _ => .pure
  refine .bind (.accept _) fun _ => .ite (.bind (.at? _) fun _ => ?_) .pure
  exact .ite (.bind .pure hrest) (.bind (.separated (blames_fieldType hinner)) hrest)

theorem blames_dynamicType : Blames (dynamicType inner) := by
  refine .bind (.accept _) fun _ => .ite (.bind hinner fun _ => ?_) .pure
  exact .bind (.expect _ _) fun _ => .pure

theorem blames_promptType : Blames (promptType inner) := by
  refine .bind (.accept _) fun _ => .ite (.bind hinner fun _ => ?_) .pure
  refine .bind (.expect _ _) fun _ => .bind hinner fun _ => ?_
  exact .bind blames_promptSettings fun _ => .bind (.expect _ _) fun _ => .pure

theorem blames_typeOfName (name : String) : Blames (typeOfName inner name) := by
  unfold typeOfName
  cases Primitive.ofName? name with
  | some p => exact .pure
  | none =>
      refine .ite .pure (.ite (blames_listType hinner) ?_)
      refine .ite (blames_recordType hinner) (.ite (blames_dynamicType hinner) ?_)
      exact .ite (blames_promptType hinner) .pure

theorem blames_atomType : Blames (atomType inner) := by
  have hgroup : Blames (groupedType inner) :=
    .bind .step fun _ => .bind hinner fun _ => .bind (.expect _ _) fun _ => .pure
  refine .bind (.at? _) fun _ => .ite ?_ ?_
  · refine .bind (.ahead blames_opensFunctionType) fun _ => ?_
    exact .ite (blames_functionType hinner) hgroup
  · exact .bind (.expect _ _) fun name => blames_typeOfName hinner name.text

theorem blames_unionType : Blames (unionType inner) := by
  have hinter : Blames (interType inner) :=
    .bind (.separated fun _ => blames_atomType hinner) fun _ => .pure
  exact .bind (.separated fun _ => hinter) fun _ => .pure

end Types

theorem blames_typeWithin (limit : Int) (levels : Nat) : Blames (typeWithin limit levels) := by
  induction levels with
  | zero => exact .bind .peek fun _ => .failAt nofun
  | succ levels ih => exact blames_unionType ih

/-! ## Expressions -/

/-- Looking for the end of the parameters fails for the tokens, if it fails. -/
theorem closesParameters_lexical (depth : Nat) (t : Token) (ts : Tokens) :
    Lexical (closesParameters depth t ts) := by
  fun_induction closesParameters depth t ts with
  | case1 _ _ e =>
      rintro _ ⟨⟩
      exact ⟨e, rfl⟩
  | case2 | case4 => exact .ok _
  | case3 _ _ _ _ _ _ _ ih | case5 _ _ _ _ _ _ _ _ ih | case6 _ _ _ _ _ _ _ _ ih
  | case7 _ _ _ _ _ ih => exact ih

theorem opensLambda_lexical (i : Input) : Lexical (opensLambda i) := by
  refine i.advance_lexical.bind fun j => ?_
  split
  · exact j.advance_lexical.bind fun k => .ok _
  · split
    · exact closesParameters_lexical 0 j.current j.ahead
    · exact .ok _

theorem blames_opensLambda : Blames fun i => (opensLambda i).map fun b => (b, i) := by
  intro i
  show ComesFrom i.tokens ((opensLambda i).map fun b => (b, i))
  cases ho : opensLambda i with
  | ok b => exact List.Subset.refl _
  | error f =>
      obtain ⟨e, rfl⟩ := opensLambda_lexical i f ho
      exact ComesFrom.error (f := .lexical e) nofun

theorem not_isUnclosed_of_numberValue {t : Token} {f : Failure} {p : Position}
    (h : numberValue t = .error f) : ¬ f.IsUnclosed p := by
  simp only [numberValue] at h
  split at h
  · cases hn : integer (numeral t) with
    | ok n =>
        rw [hn] at h
        cases h
    | error g =>
        rw [hn] at h
        cases h
        exact not_isUnclosed_of_integer hn
  · cases h

section Expressions

variable {settings : Settings} {inner : Inner} {depth : Int}

/-- What comes out of a template comes out of the pieces of its text. -/
theorem template_eq (i : Input) : template settings inner depth i = (do
    let j ← i.advance
    let parts ← (Piece.pieces (textStart i.current) i.current.text.toList).mapM
      (part settings inner depth i.current)
    return (.template (place settings i.current) parts, j)) := by
  unfold template
  simp only [Bind.bind, StateT.bind, step, lift]
  cases i.advance with
  | error f => rfl
  | ok j =>
      simp only [Except.map, Except.bind]
      cases (Piece.pieces (textStart i.current) i.current.text.toList).mapM
        (part settings inner depth i.current) <;> rfl

theorem template_eq_ok_iff {i j : Input} {e : Expr} :
    template settings inner depth i = .ok (e, j) ↔ i.advance = .ok j ∧
      ∃ parts, (Piece.pieces (textStart i.current) i.current.text.toList).mapM
        (part settings inner depth i.current) = .ok parts
        ∧ e = .template (place settings i.current) parts := by
  rw [template_eq]
  cases i.advance with
  | error f => simp [Bind.bind, Except.bind]
  | ok k =>
      cases (Piece.pieces (textStart i.current) i.current.text.toList).mapM
        (part settings inner depth i.current) with
      | error f => simp [Bind.bind, Except.bind]
      | ok parts => simp [Bind.bind, Except.bind, pure, Except.pure, eq_comm, and_comm]

variable (hexpression : Blames inner.expression)
  (htype : Blames inner.type)
  (hinterpolation : ∀ start cs f p, inner.interpolation start cs = .error f →
    f.IsUnclosed p → ∃ t ∈ (tokensOf start cs).toList, HoldsUnclosed t p)

/-! ## Templates -/

include hinterpolation

/-- A piece that cannot be read is unclosed, or is a body that something is unclosed in. -/
theorem holdsUnclosed_of_part {t : Token} {piece : Piece} {f : Failure} {p : Position}
    (ht : IsTextLiteral t) (hpiece : piece ∈ Piece.pieces (textStart t) t.text.toList)
    (hf : part settings inner depth t piece = .error f) (hp : f.IsUnclosed p) :
    HoldsUnclosed t p := by
  cases piece with
  | text cs => cases hf
  | unclosed cs =>
      cases hf
      cases hp
      exact .own ht (Piece.hasUnclosed_of_mem hpiece)
  | body start cs =>
      simp only [part] at hf
      split at hf
      · cases hf
        cases hp
      · split at hf
        · cases hf
          cases hp
        · cases he : inner.interpolation start cs with
          | ok e =>
              rw [he] at hf
              cases hf
          | error g =>
              rw [he] at hf
              cases hf
              obtain ⟨before, hbody, rfl⟩ := Piece.hasBody_of_mem hpiece
              obtain ⟨u, hu, hholds⟩ := hinterpolation _ cs f p he hp
              exact .inside ht hbody hu hholds

theorem holdsUnclosed_of_template {i : Input} {f : Failure} {p : Position}
    (ht : IsTextLiteral i.current) (hf : template settings inner depth i = .error f)
    (hp : f.IsUnclosed p) : HoldsUnclosed i.current p := by
  rw [template_eq] at hf
  cases hj : i.advance with
  | error g =>
      obtain ⟨e, rfl⟩ := i.advance_lexical g hj
      rw [hj] at hf
      cases hf
      cases hp
  | ok j =>
      cases hparts : (Piece.pieces (textStart i.current) i.current.text.toList).mapM
          (part settings inner depth i.current) with
      | ok parts =>
          rw [hj, hparts] at hf
          cases hf
      | error g =>
          rw [hj, hparts] at hf
          cases hf
          obtain ⟨piece, hpiece, hpart⟩ := exists_mem_of_mapM_eq_error hparts
          exact holdsUnclosed_of_part hinterpolation ht hpiece hpart hp

theorem comesFrom_textLiteral {i : Input} (ht : IsTextLiteral i.current) :
    ComesFrom i.tokens (textLiteral settings inner depth i.current i) := by
  unfold textLiteral
  split
  · cases h : template settings inner depth i with
    | error f =>
        exact fun p hp => ⟨i.current, List.mem_cons_self,
          holdsUnclosed_of_template hinterpolation ht h hp⟩
    | ok a => exact Input.tokens_advance (template_eq_ok_iff.mp h).1
  · exact Blames.bind .step (fun _ => .pure) i

/-! ## Lambdas, lets, groups -/

omit hinterpolation

include htype in
theorem blames_optionalType : Blames (optionalType inner) :=
  .bind (.accept _) fun _ => .ite (.bind htype fun _ => .pure) .pure

include hexpression in
theorem blames_group : Blames (group inner) :=
  .bind .step fun _ => .bind hexpression fun _ => .bind (.expect _ _) fun _ => .pure

include hexpression htype

theorem blames_parameter (before : List (Parameter Expr)) : Blames (parameter inner before) := by
  refine .bind (.expect _ _) fun _ => .ite (.failAt nofun) ?_
  refine .bind (blames_optionalType htype) fun _ => .bind (.accept _) fun _ => ?_
  exact .ite (.bind hexpression fun _ => .pure) .pure

theorem blames_lambda : Blames (lambda settings inner) := by
  refine .bind (.expect _ _) fun opening => .bind (.at? _) fun _ => ?_
  have hrest : ∀ params : List (Parameter Expr), Blames (do
      let _ ← expect (.symbol .rightParen) .closeParameters
      let returns ← optionalType inner
      let _ ← expect (.symbol .arrow) .bodyArrow
      let body ← inner.expression
      return Expr.lambda (place settings opening) params body returns) := fun _ =>
    .bind (.expect _ _) fun _ => .bind (blames_optionalType htype) fun _ =>
      .bind (.expect _ _) fun _ => .bind hexpression fun _ => .pure
  exact .ite (.bind .pure hrest) (.bind (.separated (blames_parameter hexpression htype)) hrest)

theorem blames_binding (before : List (Binding Expr)) : Blames (binding inner before) := by
  refine .bind (.expect _ _) fun _ => .ite (.failAt nofun) ?_
  refine .bind (blames_optionalType htype) fun _ => .bind (.expect _ _) fun _ => ?_
  exact .bind hexpression fun _ => .pure

theorem blames_letIn : Blames (letIn settings inner) := by
  refine .bind (.expect _ _) fun _ => .bind (.separated (blames_binding hexpression htype)) ?_
  exact fun _ => .bind (.expect _ _) fun _ => .bind hexpression fun _ => .pure

/-! ## Primaries and what is made of them -/

include hinterpolation

theorem blames_primary : Blames (primary settings inner depth) := by
  refine .peek_bind fun i => ?_
  have hother : Blames (failAt i.current (.unexpected i.current) : Reader Expr) := .failAt nofun
  cases hk : i.current.kind with
  | string => exact comesFrom_textLiteral hinterpolation (.inl hk)
  | template => exact comesFrom_textLiteral hinterpolation (.inr hk)
  | number =>
      have hvalue : Blames (lift (numberValue i.current)) :=
        .lift fun _ _ => not_isUnclosed_of_numberValue
      exact Blames.bind .step (fun _ => .bind hvalue fun _ => .pure) i
  | boolean | name => exact Blames.bind .step (fun _ => .pure) i
  | endOfInput => exact hother i
  | keyword k =>
      cases k with
      | letWord => exact blames_letIn hexpression htype i
      | _ => exact hother i
  | symbol s =>
      cases s with
      | leftParen =>
          have hchoice : ∀ b : Bool, Blames (if b then lambda settings inner else group inner) :=
            fun _ => .ite (blames_lambda hexpression htype) (blames_group hexpression)
          exact Blames.bind blames_opensLambda hchoice i
      | _ => exact hother i

theorem blames_asserted : Blames (asserted settings inner depth) := by
  have hprimary : Blames (primary settings inner depth) :=
    blames_primary hexpression htype hinterpolation
  have happlication : Blames (application settings inner depth) :=
    .bind hprimary fun _ => .bind (.repeated hprimary) fun _ => .pure
  have hpipeline : Blames (pipeline settings inner depth) :=
    .bind (.separated fun _ => happlication) fun _ => .pure
  exact .bind hpipeline fun _ => .bind (.accept _) fun _ => .ite (.bind htype fun _ => .pure) .pure

end Expressions

/-! ## Sources -/

/-- Where some tokens are read as a whole, one of them is to blame. -/
theorem exists_holdsUnclosed_of_complete {α : Type} {r : Reader α} (hr : Blames r)
    {what : Expectation} {ts : Tokens} {f : Failure} {p : Position}
    (hf : complete r what ts = .error f) (hp : f.IsUnclosed p) :
    ∃ t ∈ ts.toList, HoldsUnclosed t p := by
  unfold complete at hf
  cases hi : Input.ofTokens ts with
  | error g =>
      obtain ⟨e, rfl⟩ := Input.ofTokens_lexical ts g hi
      rw [hi] at hf
      cases hf
      cases hp
  | ok i =>
      have hfrom := (hr i).mono (Input.tokens_ofTokens hi)
      cases hri : r i with
      | error g =>
          simp only [hi, hri, Bind.bind, Except.bind] at hf
          cases hf
          rw [hri] at hfrom
          exact hfrom p hp
      | ok a =>
          obtain ⟨a, j⟩ := a
          rw [hri] at hfrom
          cases hend : expect .endOfInput what j with
          | error g =>
              have hlast := (Blames.expect .endOfInput what j).mono hfrom
              simp only [hi, hri, hend, Bind.bind, Except.bind] at hf
              cases hf
              rw [hend] at hlast
              exact hlast p hp
          | ok b =>
              simp only [hi, hri, hend, Bind.bind, Except.bind] at hf
              cases hf

theorem blames_expressionWithin (settings : Settings) (levels : Nat) (depth : Int) :
    Blames (expressionWithin settings levels depth) := by
  induction levels generalizing depth with
  | zero => exact .bind .peek fun _ => .failAt nofun
  | succ levels ih =>
      refine blames_asserted (ih depth) (blames_typeWithin settings.maxNesting levels) ?_
      exact fun _ _ _ _ hf hp => exists_holdsUnclosed_of_complete (ih (depth + 1)) hf hp

end Reading

end TypedPrompt
