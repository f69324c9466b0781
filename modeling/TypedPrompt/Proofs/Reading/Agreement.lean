/-
# `Proofs.Reading.Agreement` — two runs of a reader

`Reader.Agrees v R r r'` compares two readers on inputs that look alike under a view
`v`: the second one gives the answer of the first, as far as `R` says, and leaves an
input that looks alike; or it fails as the first one does.  Only where a limit stopped
the first one, the second may do anything (`Follows`).

So the same statement says, with everything seen, that more room for nesting does not
change an answer, and with no places seen, that the layout does not; used in both
directions, it says that two sources are both read or both refused.

The rules follow the primitives that readers are written in, as those of `Yields` do,
and a production is compared with itself in the order in which it is written.
-/
import TypedPrompt.Proofs.Token.Views
import TypedPrompt.Reading.Input

namespace TypedPrompt

/-! ## Inputs and failures as they are seen -/

/-- An input as it is seen. -/
def Input.view (v : View) (i : Input) : Input := ⟨i.current.view v, i.ahead.view v⟩

/-- A fault of the grammar as it is seen. -/
def SyntaxCause.view (v : View) : SyntaxCause → SyntaxCause
  | .expected what found => .expected what (found.view v)
  | .unexpected found => .unexpected (found.view v)
  | cause => cause

/-- A failure as it is seen. -/
def Failure.view (v : View) : Failure → Failure
  | .lexical e => .lexical (e.view v)
  | .syntactic cause p => .syntactic (cause.view v) (v.see p)
  | .oversizedInteger => .oversizedInteger

@[simp] theorem SyntaxCause.view_exact (cause : SyntaxCause) : cause.view .exact = cause := by
  cases cause <;> rfl

@[simp] theorem Failure.view_exact (f : Failure) : f.view .exact = f := by
  cases f with
  | lexical e => rfl
  | syntactic cause p => exact congrArg (Failure.syntactic · p) cause.view_exact
  | oversizedInteger => rfl

variable {v : View}

theorem Input.view_eq_iff {i j : Input} :
    i.view v = j.view v
      ↔ i.current.view v = j.current.view v ∧ i.ahead.view v = j.ahead.view v := by
  simp [Input.view]

/-- The second outcome is that of the first, unless a limit stopped the first one. -/
inductive Follows (v : View) {α β : Type} (R : α → β → Prop) :
    Except Failure α → Except Failure β → Prop where
  | ok {a : α} {b : β} : R a b → Follows v R (.ok a) (.ok b)
  | error {e e' : Failure} : e.view v = e'.view v → Follows v R (.error e) (.error e')
  | limit {e : Failure} {y : Except Failure β} : e.isLimit = true → Follows v R (.error e) y

namespace Follows

variable {α β γ δ : Type} {R : α → β → Prop} {S : γ → δ → Prop} {x : Except Failure α}
  {y : Except Failure β}

theorem bind {f : α → Except Failure γ} {g : β → Except Failure δ} (h : Follows v R x y)
    (hf : ∀ a b, R a b → Follows v S (f a) (g b)) : Follows v S (x >>= f) (y >>= g) := by
  cases h with
  | ok h => exact hf _ _ h
  | error h => exact .error h
  | limit h => exact .limit h

theorem map {f : α → γ} {g : β → δ} (h : Follows v R x y) (hf : ∀ a b, R a b → S (f a) (g b)) :
    Follows v S (x.map f) (y.map g) := by
  cases h with
  | ok h => exact .ok (hf _ _ h)
  | error h => exact .error h
  | limit h => exact .limit h

theorem mono {T : α → β → Prop} (h : Follows v R x y) (hT : ∀ a b, R a b → T a b) :
    Follows v T x y := by
  cases h with
  | ok h => exact .ok (hT _ _ h)
  | error h => exact .error h
  | limit h => exact .limit h

/-- What does not hang on a place. -/
theorem refl {R : α → α → Prop} (hR : ∀ a, R a a) (x : Except Failure α) : Follows v R x x := by
  cases x with
  | ok a => exact .ok (hR a)
  | error e => exact .error rfl

/-- An answer of the first one is one of the second. -/
theorem exists_ok {a : α} (h : Follows v R (.ok a) y) : ∃ b, y = .ok b ∧ R a b := by
  cases h with
  | ok h => exact ⟨_, rfl, h⟩

/-- Item by item, as far as the items look alike. -/
theorem mapM {T : α → β → Prop} {f : α → Except Failure γ} {g : β → Except Failure δ}
    (hf : ∀ a b, T a b → Follows v S (f a) (g b)) {as : List α} {bs : List β}
    (h : List.Forall₂ T as bs) : Follows v (List.Forall₂ S) (as.mapM f) (bs.mapM g) := by
  induction h with
  | nil => exact .ok .nil
  | cons hab _ ih =>
      rw [List.mapM_cons, List.mapM_cons]
      refine (hf _ _ hab).bind fun c d hcd => ih.bind fun cs ds hcds => .ok (.cons hcd hcds)

end Follows

namespace Input

theorem follows_ofTokens {ts us : Tokens} (h : ts.view v = us.view v) :
    Follows v (fun i j => i.view v = j.view v) (ofTokens ts) (ofTokens us) := by
  cases ts <;> cases us <;> simp [Tokens.view] at h
  · exact .ok (by simp [Input.view, h])
  · exact .ok (by simp [Input.view, Tokens.view, h])
  · exact .error (by simp [Failure.view, h])

theorem follows_advance {i j : Input} (h : i.view v = j.view v) :
    Follows v (fun i j => i.view v = j.view v) i.advance j.advance :=
  follows_ofTokens (Input.view_eq_iff.mp h).2

theorem kind_of_view_eq {i j : Input} (h : i.view v = j.view v) :
    i.current.kind = j.current.kind :=
  (Token.view_eq_iff.mp (Input.view_eq_iff.mp h).1).1

theorem size_of_view_eq {i j : Input} (h : i.view v = j.view v) : i.size = j.size := by
  unfold size
  rw [kind_of_view_eq h, Tokens.length_of_view_eq (Input.view_eq_iff.mp h).2]

end Input

/-! ## Readers that agree -/

namespace Reader

/-- On inputs that look alike the second reader does what the first one does. -/
def Agrees (v : View) {α β : Type} (R : α → β → Prop) (r : Reader α) (r' : Reader β) : Prop :=
  ∀ i i' : Input, i.view v = i'.view v →
    Follows v (fun a b => R a.1 b.1 ∧ a.2.view v = b.2.view v) (r i) (r' i')

/-- The tokens look alike. -/
def SameToken (v : View) (t t' : Token) : Prop := t.view v = t'.view v

namespace SameToken

variable {t t' : Token}

theorem kind (h : SameToken v t t') : t.kind = t'.kind := (Token.view_eq_iff.mp h).1

theorem text (h : SameToken v t t') : t.text = t'.text := (Token.view_eq_iff.mp h).2.1

theorem start (h : SameToken v t t') : v.see t.start = v.see t'.start :=
  (Token.view_eq_iff.mp h).2.2.1

end SameToken

namespace Agrees

variable {α β γ δ : Type} {R : α → β → Prop} {S : γ → δ → Prop} {r s : Reader α}
  {r' s' : Reader β}

theorem pure {a : α} {b : β} (h : R a b) :
    Agrees v R (Pure.pure a : Reader α) (Pure.pure b : Reader β) :=
  fun _ _ hi => .ok ⟨h, hi⟩

theorem bind {f : α → Reader γ} {g : β → Reader δ} (h : Agrees v R r r')
    (hf : ∀ a b, R a b → Agrees v S (f a) (g b)) : Agrees v S (r >>= f) (r' >>= g) :=
  fun i i' hi => (h i i' hi).bind fun a b hab => hf a.1 b.1 hab.1 a.2 b.2 hab.2

theorem mono {T : α → β → Prop} (h : Agrees v R r r') (hT : ∀ a b, R a b → T a b) :
    Agrees v T r r' :=
  fun i i' hi => (h i i' hi).mono fun a b hab => ⟨hT a.1 b.1 hab.1, hab.2⟩

theorem ite {c c' : Prop} [Decidable c] [Decidable c'] (hc : c ↔ c') (hr : c → Agrees v R r r')
    (hs : ¬ c → Agrees v R s s') : Agrees v R (if c then r else s) (if c' then r' else s') := by
  by_cases h : c
  · rw [if_pos h, if_pos (hc.mp h)]
    exact hr h
  · rw [if_neg h, if_neg (mt hc.mpr h)]
    exact hs h

theorem peek : Agrees v (SameToken v) peek peek :=
  fun _ _ hi => .ok ⟨(Input.view_eq_iff.mp hi).1, hi⟩

theorem step : Agrees v (SameToken v) step step :=
  fun _ _ hi => (Input.follows_advance hi).map fun _ _ hj => ⟨(Input.view_eq_iff.mp hi).1, hj⟩

theorem failAt {t t' : Token} {cause cause' : SyntaxCause} (ht : SameToken v t t')
    (hc : cause.view v = cause'.view v) :
    Agrees v R (failAt t cause : Reader α) (failAt t' cause' : Reader β) :=
  fun _ _ _ => .error (by simp [Failure.view, hc, ht.start])

theorem at? (kind : Kind) : Agrees v Eq (at? kind) (at? kind) :=
  fun _ _ hi => .ok ⟨by rw [Input.kind_of_view_eq hi], hi⟩

theorem accept (kind : Kind) : Agrees v Eq (accept kind) (accept kind) := by
  refine bind (at? kind) ?_
  rintro b _ rfl
  refine ite Iff.rfl (fun _ => ?_) fun _ => pure rfl
  exact bind step fun _ _ _ => pure rfl

theorem expect (kind : Kind) (what : Expectation) :
    Agrees v (SameToken v) (expect kind what) (expect kind what) := by
  refine bind peek fun t t' ht => ?_
  refine ite (by rw [ht.kind]) (fun _ => step) fun _ => failAt ht ?_
  exact congrArg (SyntaxCause.expected what) ht

theorem ahead (h : Agrees v R r r') : Agrees v R (ahead r) (ahead r') :=
  fun i i' hi => (h i i' hi).map fun _ _ hab => ⟨hab.1, hi⟩

theorem lift {x : Except Failure α} {y : Except Failure β} (h : Follows v R x y) :
    Agrees v R (lift x) (lift y) :=
  fun _ _ hi => h.map fun _ _ hab => ⟨hab, hi⟩

theorem size : Agrees v Eq size size :=
  fun _ _ hi => .ok ⟨Input.size_of_view_eq hi, hi⟩

/-- Items with a separator, each compared knowing that those before it agree. -/
theorem separatedWithin {sep : Kind} {item : List α → Reader α} {item' : List β → Reader β}
    (hitem : ∀ as bs, List.Forall₂ R as bs → Agrees v R (item as) (item' bs)) :
    ∀ (bound : Nat) (as : List α) (bs : List β), List.Forall₂ R as bs →
      Agrees v (List.Forall₂ R) (separatedWithin sep item bound as)
        (separatedWithin sep item' bound bs) := by
  intro bound
  induction bound with
  | zero => exact fun as bs h => bind (hitem as bs h) fun _ _ hab => pure (.cons hab .nil)
  | succ bound ih =>
      intro as bs h
      refine bind (hitem as bs h) fun a b hab => bind (accept sep) ?_
      rintro c _ rfl
      refine ite Iff.rfl (fun _ => ?_) fun _ => pure (.cons hab .nil)
      refine bind (ih _ _ (List.rel_append h (.cons hab .nil))) fun _ _ hmore => ?_
      exact pure (.cons hab hmore)

theorem separated {sep : Kind} {item : List α → Reader α} {item' : List β → Reader β}
    (hitem : ∀ as bs, List.Forall₂ R as bs → Agrees v R (item as) (item' bs)) :
    Agrees v (List.Forall₂ R) (separated sep item) (separated sep item') := by
  refine bind size ?_
  rintro n _ rfl
  exact separatedWithin hitem n [] [] .nil

/-- Items up to the mark that closes them, or none. -/
theorem listed {sep close : Kind} {item : List α → Reader α} {item' : List β → Reader β}
    {k : List α → Reader γ} {k' : List β → Reader δ}
    (hitem : ∀ as bs, List.Forall₂ R as bs → Agrees v R (item as) (item' bs))
    (hk : ∀ as bs, List.Forall₂ R as bs → Agrees v S (k as) (k' bs)) :
    Agrees v S
      (Reader.at? close >>= fun b =>
        if b = true then Pure.pure [] >>= k else Reader.separated sep item >>= k)
      (Reader.at? close >>= fun b =>
        if b = true then Pure.pure [] >>= k' else Reader.separated sep item' >>= k') := by
  refine bind (at? close) ?_
  rintro b _ rfl
  exact ite Iff.rfl (fun _ => hk [] [] .nil) fun _ => bind (separated hitem) hk

/-- Items that have to be the same. -/
theorem separated_eq {sep : Kind} {item item' : List α → Reader α}
    (hitem : ∀ as, Agrees v Eq (item as) (item' as)) :
    Agrees v Eq (Reader.separated sep item) (Reader.separated sep item') := by
  refine (separated (R := Eq) fun as bs h => ?_).mono fun as bs h => ?_
  · rw [List.forall₂_eq_eq_eq] at h
    exact h ▸ hitem as
  · rwa [List.forall₂_eq_eq_eq] at h

/-- Items that have to be the same, up to the mark that closes them, or none. -/
theorem listed_eq {sep close : Kind} {item item' : List α → Reader α} {k k' : List α → Reader γ}
    {S : γ → γ → Prop} (hitem : ∀ as, Agrees v Eq (item as) (item' as))
    (hk : ∀ as, Agrees v S (k as) (k' as)) :
    Agrees v S
      (Reader.at? close >>= fun b =>
        if b = true then Pure.pure [] >>= k else Reader.separated sep item >>= k)
      (Reader.at? close >>= fun b =>
        if b = true then Pure.pure [] >>= k' else Reader.separated sep item' >>= k') := by
  refine bind (at? close) ?_
  rintro b _ rfl
  refine ite Iff.rfl (fun _ => hk []) fun _ => bind (separated_eq hitem) ?_
  rintro as _ rfl
  exact hk as

theorem repeatedWithin {begins : Kind → Bool} (hitem : Agrees v R r r') : ∀ bound : Nat,
    Agrees v (List.Forall₂ R) (repeatedWithin begins r bound) (repeatedWithin begins r' bound) := by
  intro bound
  induction bound with
  | zero => exact pure .nil
  | succ bound ih =>
      refine bind peek fun t t' ht => ?_
      refine ite (by rw [ht.kind]) (fun _ => ?_) fun _ => pure .nil
      exact bind hitem fun _ _ hab => bind ih fun _ _ hmore => pure (.cons hab hmore)

theorem repeated {begins : Kind → Bool} (hitem : Agrees v R r r') :
    Agrees v (List.Forall₂ R) (repeated begins r) (repeated begins r') := by
  refine bind size ?_
  rintro n _ rfl
  exact repeatedWithin hitem n

end Agrees

end Reader

end TypedPrompt
