/-
# `Proofs.Reading.Continuations` — derivations as a greedy reader meets them

A greedy reader attaches an argument, a stage or an assertion to the innermost
expression that can take it, and a member of a union to the innermost type.  A
derivation may have attached it further out.  To show that nothing is lost, the
tokens are described from left to right, by what may come next, without saying to
what it is attached.

`TypeStart` and `TypeTail` describe the tokens in front of a type and behind an
atom.  `Start m` and `Tail m` do so for expressions.  The number `m` counts the
expressions around the place that have not had their assertion yet.  The body of
a lambda or of a let opens one more of them, and an assertion closes one.  A
larger `m` allows more (`Tail.succ`), so a reader that has attached something
further in than the derivation did can still go on.

`Annotation.start` and `Expression.start` turn derivations into such descriptions.
-/
import TypedPrompt.Proofs.Reading.Leaves

namespace TypedPrompt.Grammar

section Forms

variable {α : Type} {sep : Kind} {R : Phrase α} {S T : List Token → Prop}
  {ts vs : List Token} {a : α} {as : List α}

/-- Items, and behind them what an item can be followed by. -/
theorem Separated.start (h : Separated sep R ts as)
    (hnext : ∀ s us, s.kind = sep → S us → T (s :: us))
    (hR : ∀ us a ws, us.length ≤ ts.length → R us a → T ws → S (us ++ ws)) (hvs : T vs) :
    S (ts ++ vs) := by
  induction h with
  | last ha => exact hR _ _ vs (Nat.le_refl _) ha hvs
  | @next ts us s a as ha hs _ ih =>
      have hus : S (us ++ vs) := ih fun ws b xs hle => hR ws b xs (by simp; omega)
      have h : S (ts ++ s :: (us ++ vs)) := hR ts a _ (by simp) ha (hnext s _ hs hus)
      simpa using h

theorem Joined.start {join : List α → α} (h : Joined sep R join ts a)
    (hnext : ∀ s us, s.kind = sep → S us → T (s :: us))
    (hR : ∀ us a ws, us.length ≤ ts.length → R us a → T ws → S (us ++ ws)) (hvs : T vs) :
    S (ts ++ vs) := by
  cases h with
  | single h => exact hR _ _ vs (Nat.le_refl _) h hvs
  | several h _ => exact h.start hnext hR hvs

end Forms

/-! ## Types -/

/-- An atom that ends where its last bracket or its name ends. -/
def ClosedType (ts : List Token) : Prop :=
  ∃ t, Enclosed .leftParen .rightParen Annotation ts t ∨ Word ts t

/-- A function type up to its arrow. -/
inductive FunctionHeader : List Token → Prop where
  | intro {ts : List Token} {params : List NamedType} {arrow : Token} :
      Enclosed .leftParen .rightParen (Listed (.symbol .comma) Named) ts params →
      arrow.kind = .symbol .arrow → FunctionHeader (ts ++ [arrow])

/-- A mark that another member of a type stands behind. -/
def IsMemberMark (t : Token) : Prop := t.kind = .symbol .bar ∨ t.kind = .symbol .ampersand

mutual

/-- What a type begins, with all that follows it in the same type. -/
inductive TypeStart : List Token → Prop where
  | closed {ts us : List Token} : ClosedType ts → TypeTail us → TypeStart (ts ++ us)
  | header {ts us : List Token} : FunctionHeader ts → TypeStart us → TypeStart (ts ++ us)

/-- What follows an atom in the same type. -/
inductive TypeTail : List Token → Prop where
  | nil : TypeTail []
  | member {m : Token} {us : List Token} : IsMemberMark m → TypeStart us → TypeTail (m :: us)

end

theorem Atom.start {ts us : List Token} {t : Ty}
    (hA : ∀ vs t ws, vs.length < ts.length → Annotation vs t → TypeTail ws → TypeStart (vs ++ ws))
    (h : Atom ts t) (hus : TypeTail us) : TypeStart (ts ++ us) := by
  cases h with
  | @function vs ws arrow params returns h ha hret =>
      have hws : TypeStart (ws ++ us) := hA ws returns us (by simp; omega) hret hus
      simpa using TypeStart.header (.intro h ha) hws
  | group h => exact .closed ⟨_, .inl h⟩ hus
  | word h => exact .closed ⟨_, .inr h⟩ hus

/-- A derived type, and behind it more members of the same type. -/
theorem Annotation.start {ts us : List Token} {t : Ty} (h : Annotation ts t)
    (hus : TypeTail us) : TypeStart (ts ++ us) := by
  induction hn : ts.length using Nat.strongRecOn generalizing ts us t with
  | ind n ih =>
      subst hn
      cases h with
      | union h =>
          refine h.start (T := TypeTail) (fun s vs hs hv => .member (.inl hs) hv) ?_ hus
          intro vs a ws hle hi hws
          cases hi with
          | inter hi =>
              refine hi.start (T := TypeTail) (fun s vs hs hv => .member (.inr hs) hv) ?_ hws
              intro xs b ys hle' ha hys
              exact ha.start (fun zs t ws hlt hz hw => ih zs.length (by omega) hz hw rfl) hys

/-! ## Expressions -/

variable (file : String)

/-- A primary that ends where its only token or its last bracket ends. -/
inductive ClosedPrimary : List Token → Prop where
  | single {t : Token} {e : Expr} : Single file t e → ClosedPrimary [t]
  | group {ts : List Token} {e : Expr} :
      Enclosed .leftParen .rightParen (Expression file) ts e → ClosedPrimary ts

/-- A lambda or a let up to its body. -/
inductive Header : List Token → Prop where
  | lambda {l r arrow : Token} {ts us : List Token} {params : List (Parameter Expr)}
      {returns : Option Ty} :
      l.kind = .symbol .leftParen → Listed (.symbol .comma) (LambdaParameter file) ts params →
      (params.map Parameter.name).Nodup → r.kind = .symbol .rightParen →
      Preceded .colon Annotation us returns → arrow.kind = .symbol .arrow →
      Header (l :: (ts ++ r :: (us ++ [arrow])))
  | letIn {l i : Token} {ts : List Token} {bindings : List (Binding Expr)} :
      l.kind = .keyword .letWord → Separated (.symbol .comma) (LetBinding file) ts bindings →
      (bindings.map Binding.name).Nodup → i.kind = .keyword .inWord →
      Header (l :: (ts ++ [i]))

mutual

/-- What an application begins, inside an expression that may still be asserted of
and `m` such expressions around it. -/
inductive Start : Nat → List Token → Prop where
  | closed {m : Nat} {ts us : List Token} :
      ClosedPrimary file ts → Tail (m + 1) us → Start m (ts ++ us)
  | header {m : Nat} {ts us : List Token} :
      Header file ts → Start (m + 1) us → Start m (ts ++ us)

/-- What follows a primary inside `m` expressions that may still be asserted of. -/
inductive Tail : Nat → List Token → Prop where
  | nil {m : Nat} : Tail m []
  | argument {m : Nat} {us : List Token} : Start m us → Tail (m + 1) us
  | stage {m : Nat} {mark : Token} {us : List Token} :
      mark.kind = .symbol .pipe → Start m us → Tail (m + 1) (mark :: us)
  | assertion {m : Nat} {mark : Token} {us vs : List Token} {t : Ty} :
      mark.kind = .symbol .doubleColon → Annotation us t → Tail m vs →
      Tail (m + 1) (mark :: (us ++ vs))

end

variable {file}

mutual

/-- One more expression around it does no harm. -/
theorem Start.succ : ∀ {m : Nat} {ts : List Token}, Start file m ts → Start file (m + 1) ts
  | _, _, .closed hc ht => .closed hc ht.succ
  | _, _, .header hh hs => .header hh hs.succ

theorem Tail.succ : ∀ {m : Nat} {us : List Token}, Tail file m us → Tail file (m + 1) us
  | _, _, .nil => .nil
  | _, _, .argument hs => .argument hs.succ
  | _, _, .stage hm hs => .stage hm hs.succ
  | _, _, .assertion hm ha ht => .assertion hm ha ht.succ

end

section Derivations

variable {ts us : List Token} {e : Expr} {m : Nat}

theorem Primary.start
    (hE : ∀ vs e m ws, vs.length < ts.length → Expression file vs e → Tail file m ws →
      Start file m (vs ++ ws))
    (h : Primary file ts e) (hus : Tail file (m + 1) us) : Start file m (ts ++ us) := by
  cases h with
  | single h => exact .closed (.single h) hus
  | group h => exact .closed (.group h) hus
  | @lambda l r arrow vs ws xs params returns body hl hps hd hr hret ha hbody =>
      have hxs : Start file (m + 1) (xs ++ us) := hE xs body _ us (by simp; omega) hbody hus
      simpa using Start.header (.lambda hl hps hd hr hret ha) hxs
  | @letIn l i vs ws bindings body hl hbs hd hi hbody =>
      have hws : Start file (m + 1) (ws ++ us) := hE ws body _ us (by simp; omega) hbody hus
      simpa using Start.header (.letIn hl hbs hd hi) hws

/-- Arguments side by side follow a primary. -/
theorem Repeated.tail {arguments : List Expr}
    (hP : ∀ vs e ws, vs.length ≤ ts.length → Primary file vs e → Tail file (m + 1) ws →
      Start file m (vs ++ ws))
    (h : Repeated (Primary file) ts arguments) (hus : Tail file (m + 1) us) :
    Tail file (m + 1) (ts ++ us) := by
  induction h with
  | nil => exact hus
  | @cons vs ws a as ha _ ih =>
      have hws : Tail file (m + 1) (ws ++ us) := ih fun xs e ys hle => hP xs e ys (by simp; omega)
      rw [List.append_assoc]
      exact .argument (hP vs a _ (by simp) ha hws)

theorem Application.start
    (hE : ∀ vs e m ws, vs.length < ts.length → Expression file vs e → Tail file m ws →
      Start file m (vs ++ ws))
    (h : Application file ts e) (hus : Tail file (m + 1) us) : Start file m (ts ++ us) := by
  cases h with
  | alone h => exact h.start hE hus
  | @applied vs ws function arguments hf hs _ =>
      have hP : ∀ xs e ys, xs.length ≤ (vs ++ ws).length → Primary file xs e →
          Tail file (m + 1) ys → Start file m (xs ++ ys) := by
        intro xs e ys hle hp hys
        exact hp.start (fun zs e m ys hlt => hE zs e m ys (by omega)) hys
      have hws : Tail file (m + 1) (ws ++ us) :=
        hs.tail (fun xs e ys hle => hP xs e ys (by simp; omega)) hus
      rw [List.append_assoc]
      exact hP vs function _ (by simp) hf hws

theorem Pipeline.start
    (hE : ∀ vs e m ws, vs.length < ts.length → Expression file vs e → Tail file m ws →
      Start file m (vs ++ ws))
    (h : Pipeline file ts e) (hus : Tail file (m + 1) us) : Start file m (ts ++ us) := by
  cases h with
  | stages h =>
      refine h.start (T := Tail file (m + 1)) (fun s vs hs hv => .stage hs hv) ?_ hus
      intro vs a ws hle ha hws
      exact ha.start (fun xs e m ys hlt => hE xs e m ys (by omega)) hws

/-- A derived expression, and behind it what can follow inside the expressions
around it. -/
theorem Expression.start (h : Expression file ts e) (hus : Tail file m us) :
    Start file m (ts ++ us) := by
  induction hn : ts.length using Nat.strongRecOn generalizing ts us e m with
  | ind n ih =>
      subst hn
      cases h with
      | pipeline h =>
          exact h.start (fun vs e m ws hlt hv hw => ih vs.length hlt hv hw rfl) hus.succ
      | @assertion vs ws mark e t hp hm ht =>
          have htail : Tail file (m + 1) (mark :: (ws ++ us)) := .assertion hm ht hus
          have h : Start file m (vs ++ mark :: (ws ++ us)) := by
            refine hp.start (fun xs e m ys hlt hx hy => ?_) htail
            exact ih xs.length (by simp; omega) hx hy rfl
          simpa using h

/-- A derived expression on its own. -/
theorem Expression.start_nil (h : Expression file ts e) : Start file 0 ts := by
  have := h.start (m := 0) .nil
  rwa [List.append_nil] at this

end Derivations

end TypedPrompt.Grammar
