/-
# `Proofs.Reading.Brackets` — what the look-ahead for a lambda passes over

A parenthesis opens the parameters of a lambda if an arrow or a colon stands
behind the one that closes it.  The look-ahead counts brackets to find it, and is
right about every derivation, because brackets of all shapes balance in whatever
the grammar derives: it passes over such tokens as if they were not there, whatever
stands behind them.
-/
import TypedPrompt.Proofs.Reading.Leaves

namespace TypedPrompt

open Reading Grammar

/-- The look-ahead in front of some tokens, behind `depth` brackets and one more. -/
def lookFrom (depth : Nat) : Tokens → Except Failure Bool
  | .cons t rest => closesParameters depth t rest
  | .finish _ => .ok false
  | .fault e => .error (.lexical e)

/-- A bracket of any shape. -/
def Kind.isBracket : Kind → Bool
  | .symbol s => s.opens || s.closes
  | _ => false

/-- The look-ahead passes over the tokens. -/
def Balanced (ts : List Token) : Prop :=
  ∀ depth rest, lookFrom depth (Tokens.prepend ts rest) = lookFrom depth rest

/-- Whether a lambda goes on behind its parameters with a token of a kind. -/
def Kind.followsParameters (k : Kind) : Bool := k == .symbol .arrow || k == .symbol .colon

namespace Tokens

variable {rest : Tokens}

/-- Nothing but the end of the input is last. -/
def IsEnded : Tokens → Prop
  | .cons _ rest => rest.IsEnded
  | .finish t => t.kind = .endOfInput
  | .fault _ => True

theorem IsLexed.isEnded (h : rest.IsLexed) : rest.IsEnded := by
  induction rest with
  | cons t rest ih => exact ih h.2.2
  | finish t => exact h
  | fault e => trivial

theorem isEnded_prepend (h : rest.IsEnded) (ts : List Token) : (prepend ts rest).IsEnded := by
  induction ts with
  | nil => exact h
  | cons t ts ih => exact ih

theorem isEnded_ofList (eof : EndToken) (ts : List Token) : (ofList eof.val ts).IsEnded :=
  isEnded_prepend (show (Tokens.finish eof.val).IsEnded from eof.property) ts

end Tokens

section Steps

variable {t : Token} {ts us : List Token} {rest : Tokens} {depth : Nat}

theorem lookFrom_plain (h : t.kind.isBracket = false) :
    lookFrom depth (.cons t rest) = lookFrom depth rest := by
  cases rest with
  | cons u rest =>
      show closesParameters depth t (.cons u rest) = _
      rw [closesParameters]
      split
      · next s hs =>
          rw [hs, Kind.isBracket, Bool.or_eq_false_iff] at h
          simp only [h.1, h.2]
          rfl
      · rfl
  | finish _ | fault _ => rfl

theorem lookFrom_open {s : Symbol} (h : t.kind = .symbol s) (hs : s.opens = true) :
    lookFrom depth (.cons t rest) = lookFrom (depth + 1) rest := by
  cases rest with
  | cons u rest =>
      show closesParameters depth t (.cons u rest) = _
      rw [closesParameters, h]
      simp only [hs, if_true]
      rfl
  | finish _ | fault _ => rfl

theorem lookFrom_close {s : Symbol} (h : t.kind = .symbol s) (ho : s.opens = false)
    (hs : s.closes = true) : lookFrom (depth + 1) (.cons t rest) = lookFrom depth rest := by
  cases rest with
  | cons u rest =>
      show closesParameters (depth + 1) t (.cons u rest) = _
      rw [closesParameters, h]
      simp only [ho, hs, if_true]
      rfl
  | finish _ | fault _ => rfl

/-- At the bracket that it was looking for, the look-ahead asks what bracket it is and
what is behind it. -/
theorem lookFrom_last {s : Symbol} {k : Input} (h : t.kind = .symbol s) (ho : s.opens = false)
    (hs : s.closes = true) (hrest : rest.IsEnded) (hk : Input.ofTokens rest = .ok k) :
    lookFrom 0 (.cons t rest) = .ok (s == .rightParen && followsParameters k.current) := by
  cases rest with
  | cons u rest =>
      cases hk
      show closesParameters 0 t (.cons u rest) = _
      rw [closesParameters, h]
      simp only [ho, hs, if_true]
      rfl
  | finish u =>
      cases hk
      have hu : followsParameters u = false := by
        rw [followsParameters, show u.kind = .endOfInput from hrest]
        rfl
      rw [hu, Bool.and_false]
      rfl
  | fault e => cases hk

namespace Balanced

theorem nil : Balanced [] := fun _ _ => rfl

theorem append (h : Balanced ts) (h' : Balanced us) : Balanced (ts ++ us) := by
  intro depth rest
  rw [Tokens.prepend_append, h, h']

theorem cons (ht : t.kind.isBracket = false) (h : Balanced ts) : Balanced (t :: ts) := by
  intro depth rest
  rw [Tokens.prepend_cons, lookFrom_plain ht, h]

theorem single (ht : t.kind.isBracket = false) : Balanced [t] := cons ht nil

theorem between {l r : Token} {open_ close : Symbol} (hl : l.kind = .symbol open_)
    (ho : open_.opens = true) (h : Balanced ts) (hr : r.kind = .symbol close)
    (hno : close.opens = false) (hc : close.closes = true) : Balanced (l :: (ts ++ [r])) := by
  intro depth rest
  rw [Tokens.prepend_cons, lookFrom_open hl ho, Tokens.prepend_append, h]
  exact lookFrom_close hr hno hc

end Balanced

end Steps

theorem Token.IsWord.isBracket {t : Token} {word : String} (h : t.IsWord word) :
    t.kind.isBracket = false := by
  rw [h.1]
  rfl

namespace Grammar

theorem Question.balanced {ts : List Token} {b : Bool} (h : Question ts b) : Balanced ts := by
  cases h with
  | no => exact .nil
  | yes hq => exact .single (by rw [hq]; rfl)

theorem IsInteger.isBracket {t : Token} (h : IsInteger t) : t.kind.isBracket = false := by
  rw [h.number]
  rfl

theorem Bounds.balanced {ts : List Token} {b : Option Int × Option Int} (h : Bounds ts b) :
    Balanced ts := by
  cases h with
  | none => exact .nil
  | least hc hn => exact .cons (by rw [hc]; rfl) (.single hn.isBracket)
  | both hc hn hd hm =>
      exact .cons (by rw [hc]; rfl) (.cons hn.isBracket (.cons (by rw [hd]; rfl)
        (.single hm.isBracket)))

theorem PromptSettings.balanced {ts : List Token} {s : Option String × Option Binary64}
    (h : PromptSettings ts s) : Balanced ts := by
  cases h with
  | none => exact .nil
  | model hc hs => exact .cons (by rw [hc]; rfl) (.single (by rw [hs]; rfl))
  | both hc hs hd hn =>
      exact .cons (by rw [hc]; rfl) (.cons (by rw [hs]; rfl) (.cons (by rw [hd]; rfl)
        (.single (by rw [hn]; rfl))))
  | temperature hc hn => exact .cons (by rw [hc]; rfl) (.single (by rw [hn]; rfl))

/-! ## Forms of productions

A form is balanced if its parts are, and its parts are not longer than itself. -/

section Forms

variable {α : Type} {R : Phrase α} {ts : List Token} {a : α} {as : List α}

theorem Separated.balanced {sep : Kind} (h : Separated sep R ts as) (hsep : sep.isBracket = false)
    (hR : ∀ us a, us.length ≤ ts.length → R us a → Balanced us) : Balanced ts := by
  induction h with
  | last ha => exact hR _ _ (Nat.le_refl _) ha
  | @next ts us s a as ha hs _ ih =>
      have hts : Balanced ts := hR ts a (by simp) ha
      have hus : Balanced us := ih fun vs b hle => hR vs b (by simp; omega)
      exact hts.append (.cons (hs ▸ hsep) hus)

theorem Listed.balanced {sep : Kind} (h : Listed sep R ts as) (hsep : sep.isBracket = false)
    (hR : ∀ us a, us.length ≤ ts.length → R us a → Balanced us) : Balanced ts := by
  cases h with
  | none => exact .nil
  | some h => exact h.balanced hsep hR

theorem Joined.balanced {sep : Kind} {join : List α → α} (h : Joined sep R join ts a)
    (hsep : sep.isBracket = false)
    (hR : ∀ us a, us.length ≤ ts.length → R us a → Balanced us) : Balanced ts := by
  cases h with
  | single h => exact hR _ _ (Nat.le_refl _) h
  | several h _ => exact h.balanced hsep hR

theorem Repeated.balanced (h : Repeated R ts as)
    (hR : ∀ us a, us.length ≤ ts.length → R us a → Balanced us) : Balanced ts := by
  induction h with
  | nil => exact .nil
  | @cons ts us a as ha _ ih =>
      have hts : Balanced ts := hR ts a (by simp) ha
      exact hts.append (ih fun vs b hle => hR vs b (by simp only [List.length_append]; omega))

theorem Preceded.balanced {mark : Symbol} {o : Option α} (h : Preceded mark R ts o)
    (hmark : (Kind.symbol mark).isBracket = false)
    (hR : ∀ us a, us.length < ts.length → R us a → Balanced us) : Balanced ts := by
  cases h with
  | none => exact .nil
  | some hm h => exact .cons (hm ▸ hmark) (hR _ _ (by simp) h)

theorem Enclosed.balanced {left right : Symbol} (h : Enclosed left right R ts a)
    (hl : left.opens = true) (hno : right.opens = false) (hr : right.closes = true)
    (hR : ∀ us a, us.length < ts.length → R us a → Balanced us) : Balanced ts := by
  cases h with
  | intro hleft h hright =>
      have hts := hR _ _ (by simp only [List.length_cons, List.length_append]; omega) h
      exact .between hleft hl hts hright hno hr

end Forms

/-! ## Types -/

section Types

variable {ts : List Token} {t : Ty}

/-- A name with its type is balanced if shorter types are. -/
theorem Named.balanced {n : NamedType}
    (hA : ∀ us t, us.length < ts.length → Annotation us t → Balanced us) (h : Named ts n) :
    Balanced ts := by
  cases h with
  | @intro n c qs ts rs early late t hn hq hc ht hr =>
      have hts : Balanced ts := hA ts t (by simp; omega) ht
      exact .cons (by rw [hn]; rfl)
        (hq.balanced.append (.cons (by rw [hc]; rfl) (hts.append hr.balanced)))

theorem Word.balanced
    (hA : ∀ us t, us.length < ts.length → Annotation us t → Balanced us) (h : Word ts t) :
    Balanced ts := by
  cases h with
  | primitive _ hn | never hn | list hn | record hn | dynamic hn | prompt hn =>
      exact .single hn.isBracket
  | other hn _ => exact .single (by rw [hn]; rfl)
  | listOf hn h =>
      refine .cons hn.isBracket (h.balanced rfl rfl rfl ?_)
      intro us a hlt ha
      cases ha with
      | @intro vs ws element least most he hb =>
          have hvs : Balanced vs := hA vs element (by simp at hlt ⊢; omega) he
          exact hvs.append hb.balanced
  | recordOf hn h _ =>
      refine .cons hn.isBracket (h.balanced rfl rfl rfl ?_)
      intro us a hlt ha
      refine ha.balanced rfl ?_
      intro vs n hle hn'
      exact hn'.balanced fun ws t hlt' => hA ws t (by simp; omega)
  | dynamicOf hn h =>
      refine .cons hn.isBracket (h.balanced rfl rfl rfl ?_)
      intro us a hlt ha
      exact hA us a (by simp; omega) ha
  | promptOf hn h =>
      refine .cons hn.isBracket (h.balanced rfl rfl rfl ?_)
      intro us a hlt ha
      cases ha with
      | @intro vs ws xs c input output model x hi hc ho hs =>
          have hvs : Balanced vs := hA vs input (by simp at hlt ⊢; omega) hi
          have hws : Balanced ws := hA ws output (by simp at hlt ⊢; omega) ho
          exact hvs.append (.cons (by rw [hc]; rfl) (hws.append hs.balanced))

theorem Atom.balanced
    (hA : ∀ us t, us.length < ts.length → Annotation us t → Balanced us) (h : Atom ts t) :
    Balanced ts := by
  cases h with
  | @function us vs arrow params returns h ha hret =>
      have hus : Balanced us := by
        refine h.balanced rfl rfl rfl ?_
        intro ws a hlt hw
        refine hw.balanced rfl ?_
        intro xs n hle hn
        exact hn.balanced fun ys t hlt' => hA ys t (by simp; omega)
      have hvs : Balanced vs := hA vs returns (by simp; omega) hret
      exact hus.append (.cons (by rw [ha]; rfl) hvs)
  | group h => exact h.balanced rfl rfl rfl hA
  | word h => exact h.balanced hA

theorem Annotation.balanced (h : Annotation ts t) : Balanced ts := by
  induction hn : ts.length using Nat.strongRecOn generalizing ts t with
  | ind n ih =>
      subst hn
      cases h with
      | union h =>
          refine h.balanced rfl ?_
          intro us a hle hi
          cases hi with
          | inter hi =>
              refine hi.balanced rfl ?_
              intro vs b hle' ha
              exact ha.balanced fun ws t hlt hw => ih ws.length (by omega) hw rfl

end Types

/-! ## Expressions -/

section Expressions

variable {file : String} {ts : List Token}

theorem Preceded.balanced_annotation {o : Option Ty} (h : Preceded .colon Annotation ts o) :
    Balanced ts :=
  h.balanced rfl fun _ _ _ ht => ht.balanced

/-- A parameter is balanced if shorter expressions are. -/
theorem LambdaParameter.balanced {p : Parameter Expr}
    (hE : ∀ us e, us.length < ts.length → Expression file us e → Balanced us)
    (h : LambdaParameter file ts p) : Balanced ts := by
  cases h with
  | @intro n us vs type default hn ht hd =>
      have hvs : Balanced vs := hd.balanced rfl fun ws e hlt => hE ws e (by simp; omega)
      exact .cons (by rw [hn]; rfl) (ht.balanced_annotation.append hvs)

theorem LetBinding.balanced {b : Binding Expr}
    (hE : ∀ us e, us.length < ts.length → Expression file us e → Balanced us)
    (h : LetBinding file ts b) : Balanced ts := by
  cases h with
  | @intro n q us vs type value hn ht hq hv =>
      have hvs : Balanced vs := hE vs value (by simp; omega) hv
      exact .cons (by rw [hn]; rfl) (ht.balanced_annotation.append (.cons (by rw [hq]; rfl) hvs))

theorem IsTextLiteral.isBracket {t : Token} (h : IsTextLiteral t) : t.kind.isBracket = false := by
  rcases h with h | h <;> rw [h] <;> rfl

theorem Denotes.isBracket {t : Token} {v : Value} (h : Denotes t v) :
    t.kind.isBracket = false := by
  cases h with
  | integer h => exact h.isBracket
  | real h _ => rw [h]; rfl

theorem Single.isBracket {t : Token} {e : Expr} (h : Single file t e) :
    t.kind.isBracket = false := by
  cases h with
  | text h _ | template h _ _ _ => exact h.isBracket
  | number h => exact h.isBracket
  | boolean h | identifier h => rw [h]; rfl

theorem Primary.balanced {e : Expr}
    (hE : ∀ us e, us.length < ts.length → Expression file us e → Balanced us)
    (h : Primary file ts e) : Balanced ts := by
  cases h with
  | single h => exact .single h.isBracket
  | group h => exact h.balanced rfl rfl rfl hE
  | @lambda l r arrow us vs ws params returns body hl hps _ hr hret ha hbody =>
      have hus : Balanced us := by
        refine hps.balanced rfl ?_
        intro xs p hle hp
        exact hp.balanced fun ys e hlt => hE ys e (by simp; omega)
      have hws : Balanced ws := hE ws body (by simp; omega) hbody
      have hparams : Balanced (l :: (us ++ [r])) := .between hl rfl hus hr rfl rfl
      have htail : Balanced (vs ++ arrow :: ws) :=
        hret.balanced_annotation.append (.cons (by rw [ha]; rfl) hws)
      simpa using hparams.append htail
  | @letIn l i us vs bindings body hl hbs _ hi hbody =>
      have hus : Balanced us := by
        refine hbs.balanced rfl ?_
        intro xs b hle hb
        exact hb.balanced fun ys e hlt => hE ys e (by simp; omega)
      have hvs : Balanced vs := hE vs body (by simp; omega) hbody
      exact .cons (by rw [hl]; rfl) (hus.append (.cons (by rw [hi]; rfl) hvs))

theorem Application.balanced {e : Expr}
    (hE : ∀ us e, us.length < ts.length → Expression file us e → Balanced us)
    (h : Application file ts e) : Balanced ts := by
  cases h with
  | alone h => exact h.balanced hE
  | @applied us vs function arguments hf hs _ =>
      have hus : Balanced us := hf.balanced fun ws e hlt => hE ws e (by simp; omega)
      refine hus.append (hs.balanced ?_)
      intro ws e hle hp
      exact hp.balanced fun xs e' hlt => hE xs e' (by simp; omega)

theorem Pipeline.balanced {e : Expr}
    (hE : ∀ us e, us.length < ts.length → Expression file us e → Balanced us)
    (h : Pipeline file ts e) : Balanced ts := by
  cases h with
  | stages h =>
      refine h.balanced rfl ?_
      intro us a hle ha
      exact ha.balanced fun vs e hlt => hE vs e (by omega)

/-- Brackets balance in an expression. -/
theorem Expression.balanced {e : Expr} (h : Expression file ts e) : Balanced ts := by
  induction hn : ts.length using Nat.strongRecOn generalizing ts e with
  | ind n ih =>
      subst hn
      cases h with
      | pipeline h => exact h.balanced fun us e hlt he => ih us.length hlt he rfl
      | @assertion us vs mark e t hp hm ht =>
          have hus : Balanced us :=
            hp.balanced fun ws e hlt he => ih ws.length (by simp; omega) he rfl
          exact hus.append (.cons (by rw [hm]; rfl) ht.balanced)

/-- Brackets balance in the parameters of a lambda. -/
theorem balanced_parameters {params : List (Parameter Expr)}
    (h : Listed (.symbol .comma) (LambdaParameter file) ts params) : Balanced ts :=
  h.balanced rfl fun _ _ _ hp => hp.balanced fun _ _ _ he => he.balanced

end Expressions

end Grammar

/-! ## Looking for a lambda -/

namespace Grammar

/-- Behind the parameters of a lambda comes its arrow, or the colon of its type. -/
theorem Preceded.followsParameters {ts us : List Token} {arrow : Token} {returns : Option Ty}
    (h : Preceded .colon Annotation ts returns) (ha : arrow.kind = .symbol .arrow) :
    (nextKind (ts ++ arrow :: us)).followsParameters = true := by
  cases h with
  | none => rw [List.nil_append, nextKind_cons, ha]; rfl
  | some hm _ => rw [List.cons_append, nextKind_cons, hm]; rfl

/-- Tokens in front of which a lambda must be found: parameters in parentheses, with an
arrow or a colon behind them. -/
inductive HasParameters (file : String) : List Token → Prop where
  | intro {l r : Token} {ts us : List Token} {params : List (Parameter Expr)} :
      Listed (.symbol .comma) (LambdaParameter file) ts params →
      r.kind = .symbol .rightParen → (nextKind us).followsParameters = true →
      HasParameters file (l :: (ts ++ r :: us))

end Grammar

section Lambdas

variable {eof : EndToken} {l n r : Token} {ts : List Token} {rest : Tokens} {k : Input}

theorem opensLambda_empty (hr : r.kind = .symbol .rightParen) (hk : Input.ofTokens rest = .ok k) :
    opensLambda ⟨l, .cons r rest⟩ = .ok (followsParameters k.current) := by
  have hl : Input.advance ⟨l, .cons r rest⟩ = .ok ⟨r, rest⟩ := rfl
  have hadvance : Input.advance ⟨r, rest⟩ = .ok k := hk
  simp only [opensLambda, hl, hadvance, hr, if_true, Bind.bind, Except.bind, Pure.pure,
    Except.pure]

theorem opensLambda_name (hn : n.kind = .name) :
    opensLambda ⟨l, .cons n rest⟩ = lookFrom 0 (.cons n rest) := by
  simp [opensLambda, Input.advance, Input.ofTokens, hn, Bind.bind, Except.bind, lookFrom]

theorem opensLambda_other (hr : n.kind ≠ .symbol .rightParen) (hn : n.kind ≠ .name) :
    opensLambda ⟨l, .cons n rest⟩ = .ok false := by
  simp [opensLambda, Input.advance, Input.ofTokens, hr, hn, Bind.bind, Except.bind, Pure.pure,
    Except.pure]

/-- Behind parameters, the token behind the parenthesis that closes them decides. -/
theorem opensLambda_prepend_parameters {file : String} {params : List (Parameter Expr)}
    (h : Listed (.symbol .comma) (LambdaParameter file) ts params)
    (hr : r.kind = .symbol .rightParen) (hrest : rest.IsEnded)
    (hk : Input.ofTokens rest = .ok k) :
    opensLambda ⟨l, Tokens.prepend ts (.cons r rest)⟩ = .ok (followsParameters k.current) := by
  have hb := balanced_parameters h
  cases h with
  | none => exact opensLambda_empty hr hk
  | some h =>
      have hn := h.nextKind_eq (fun _ _ hp => hp.nextKind_eq) (by simp) []
      rw [List.append_nil] at hn
      cases ts with
      | nil => cases hn
      | cons n ts =>
          rw [Tokens.prepend_cons, opensLambda_name hn, ← Tokens.prepend_cons, hb,
            lookFrom_last hr rfl rfl hrest hk]
          rfl

/-- An expression in parentheses is no lambda, if the token behind it allows it. -/
theorem opensLambda_prepend_group {file : String} {e : Expr} (h : Expression file ts e)
    (hts : nextKind ts ≠ .symbol .rightParen) (hne : nextKind ts ≠ .endOfInput)
    (hr : r.kind = .symbol .rightParen) (hrest : rest.IsEnded)
    (hk : Input.ofTokens rest = .ok k) (hfollows : followsParameters k.current = false) :
    opensLambda ⟨l, Tokens.prepend ts (.cons r rest)⟩ = .ok false := by
  have hb := h.balanced
  cases ts with
  | nil => exact absurd rfl hne
  | cons n ts =>
      by_cases hn : n.kind = .name
      · rw [Tokens.prepend_cons, opensLambda_name hn, ← Tokens.prepend_cons, hb,
          lookFrom_last hr rfl rfl hrest hk, hfollows]
        rfl
      · exact opensLambda_other hts hn

theorem ofList_cons_append (us : List Token) :
    Input.ofList eof (l :: (ts ++ r :: us))
      = ⟨l, Tokens.prepend ts (.cons r (Tokens.ofList eof.val us))⟩ := by
  show (⟨l, Tokens.ofList eof.val (ts ++ r :: us)⟩ : Input) = _
  rw [Tokens.ofList_append]
  rfl

theorem followsParameters_current (us : List Token) :
    Reading.followsParameters (Input.ofList eof us).current = (nextKind us).followsParameters := by
  rw [← Input.current_kind eof]
  rfl

/-- Parameters are found where an arrow or a colon stands behind them. -/
theorem opensLambda_parameters {file : String} {params : List (Parameter Expr)} {us : List Token}
    (h : Listed (.symbol .comma) (LambdaParameter file) ts params)
    (hr : r.kind = .symbol .rightParen) (hus : (nextKind us).followsParameters = true) :
    opensLambda (Input.ofList eof (l :: (ts ++ r :: us))) = .ok true := by
  rw [ofList_cons_append, opensLambda_prepend_parameters h hr (Tokens.isEnded_ofList eof us)
    (Input.ofTokens_ofList eof us), followsParameters_current, hus]

/-- An expression in parentheses is none, where neither stands behind it. -/
theorem opensLambda_group {file : String} {e : Expr} {us : List Token}
    (h : Expression file ts e) (hts : nextKind ts ≠ .symbol .rightParen)
    (hne : nextKind ts ≠ .endOfInput) (hr : r.kind = .symbol .rightParen)
    (hus : (nextKind us).followsParameters = false) :
    opensLambda (Input.ofList eof (l :: (ts ++ r :: us))) = .ok false := by
  rw [ofList_cons_append, opensLambda_prepend_group h hts hne hr (Tokens.isEnded_ofList eof us)
    (Input.ofTokens_ofList eof us) (by rw [followsParameters_current, hus])]

end Lambdas

end TypedPrompt
