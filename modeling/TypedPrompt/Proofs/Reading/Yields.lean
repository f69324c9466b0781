/-
# `Proofs.Reading.Yields` — what a reader has taken when it answers

`Reader.Yields r i R` says of a reader at an input that each of its answers comes
with the tokens it took, and that `R` holds of the two.  The rules below follow
the primitives that readers are written in, so that a production is checked in
the order in which it is written: `bind` leaves what is still to be taken behind
the tokens that are taken already.
-/
import TypedPrompt.Proofs.Reading.Tokens

namespace TypedPrompt

namespace Input

/-- An input that comes from a source. -/
def IsLexed (i : Input) : Prop := ∃ ts : Tokens, ts.IsLexed ∧ ofTokens ts = .ok i

/-- Stepping over some tokens, none of them the end, leads from one input to another. -/
inductive Reaches : Input → List Token → Input → Prop where
  | refl (i : Input) : Reaches i [] i
  | step {i j k : Input} {ts : List Token} :
      i.current.kind ≠ .endOfInput → i.advance = .ok j → Reaches j ts k →
      Reaches i (i.current :: ts) k

theorem Reaches.trans {i j k : Input} {ts us : List Token} (h : Reaches i ts j)
    (h' : Reaches j us k) : Reaches i (ts ++ us) k := by
  induction h with
  | refl => exact h'
  | step hk ha _ ih => exact .step hk ha (ih h')

theorem IsLexed.advance {i j : Input} (h : i.IsLexed) (ha : i.advance = .ok j) : j.IsLexed := by
  obtain ⟨ts, hts, ho⟩ := h
  cases ts with
  | cons t rest =>
      cases ho
      exact ⟨rest, hts.2.2, ha⟩
  | finish t =>
      cases ho
      exact ⟨.finish t, hts, ha⟩
  | fault e => cases ho

theorem IsLexed.reaches {i j : Input} {ts : List Token} (h : i.IsLexed) (hr : Reaches i ts j) :
    j.IsLexed := by
  induction hr with
  | refl => exact h
  | step _ ha _ ih => exact ih (h.advance ha)

theorem IsLexed.isWritten {i : Input} (h : i.IsLexed) (hk : i.current.kind ≠ .endOfInput) :
    i.current.IsWritten := by
  obtain ⟨ts, hts, ho⟩ := h
  cases ts with
  | cons t rest =>
      cases ho
      exact hts.2.1
  | finish t =>
      cases ho
      exact absurd hts hk
  | fault e => cases ho

/-- The tokens that were stepped over stand in front of those that are left. -/
theorem eq_prepend_of_reaches {ts : Tokens} {i j : Input} {us : List Token} (hl : ts.IsLexed)
    (ho : ofTokens ts = .ok i) (hr : Reaches i us j) :
    ∃ rest, ts = Tokens.prepend us rest ∧ rest.IsLexed ∧ ofTokens rest = .ok j := by
  induction hr generalizing ts with
  | refl i => exact ⟨ts, rfl, hl, ho⟩
  | step hk ha _ ih =>
      cases ts with
      | cons t rest =>
          cases ho
          obtain ⟨left, rfl, hleft⟩ := ih hl.2.2 ha
          exact ⟨left, rfl, hleft⟩
      | finish t =>
          cases ho
          exact absurd hl hk
      | fault e => cases ho

/-- At the end of the input, the tokens that were stepped over are all there were. -/
theorem eq_ofList_of_reaches {ts : Tokens} {i j : Input} {us : List Token} (hl : ts.IsLexed)
    (ho : ofTokens ts = .ok i) (hr : Reaches i us j) (hj : j.current.kind = .endOfInput) :
    ts = Tokens.ofList j.current us := by
  obtain ⟨rest, rfl, hrest, hleft⟩ := eq_prepend_of_reaches hl ho hr
  cases rest with
  | cons t rest =>
      cases hleft
      exact absurd hj hrest.1
  | finish t =>
      cases hleft
      rfl
  | fault e => cases hleft

end Input

namespace Reader

variable {α β : Type} {r s : Reader α} {f : α → Reader β} {i : Input}
  {R : List Token → α → Prop} {P : List Token → β → Prop}

/-- Each answer of the reader takes tokens that stand in a relation to it. -/
def Yields (r : Reader α) (i : Input) (R : List Token → α → Prop) : Prop :=
  i.IsLexed → ∀ a j, r i = .ok (a, j) → ∃ ts, i.Reaches ts j ∧ R ts a

namespace Yields

theorem bind (h : r.Yields i R)
    (hf : ∀ a ts j, R ts a → (f a).Yields j fun us b => P (ts ++ us) b) :
    (r >>= f).Yields i P := by
  intro hl b k hb
  cases hr : r i with
  | error e =>
      simp only [Bind.bind, StateT.bind, hr, Except.bind] at hb
      cases hb
  | ok p =>
      obtain ⟨a, j⟩ := p
      simp only [Bind.bind, StateT.bind, hr, Except.bind] at hb
      obtain ⟨ts, hts, ha⟩ := h hl a j hr
      obtain ⟨us, hus, hp⟩ := hf a ts j ha (hl.reaches hts) b k hb
      exact ⟨ts ++ us, hts.trans hus, hp⟩

theorem mono {S : List Token → α → Prop} (h : r.Yields i R) (hs : ∀ ts a, R ts a → S ts a) :
    r.Yields i S := by
  intro hl a j ha
  obtain ⟨ts, hts, hr⟩ := h hl a j ha
  exact ⟨ts, hts, hs ts a hr⟩

theorem pure {a : α} (h : R [] a) : (Pure.pure a : Reader α).Yields i R := by
  intro _ b j hb
  cases hb
  exact ⟨[], .refl i, h⟩

theorem failAt {t : Token} {cause : SyntaxCause} : (failAt t cause : Reader α).Yields i R := by
  intro _ a j ha
  cases ha

theorem ite {c : Prop} [Decidable c] (hr : c → r.Yields i R) (hs : ¬ c → s.Yields i R) :
    (if c then r else s).Yields i R := by
  split
  · next h => exact hr h
  · next h => exact hs h

theorem peek_bind {f : Token → Reader β} (h : (f i.current).Yields i P) :
    (peek >>= f).Yields i P := h

theorem at_bind {kind : Kind} {f : Bool → Reader β} (h : (f (i.current.kind == kind)).Yields i P) :
    (at? kind >>= f).Yields i P := h

theorem step {R : List Token → Token → Prop} (hk : i.current.kind ≠ .endOfInput)
    (h : i.current.IsWritten → R [i.current] i.current) : step.Yields i R := by
  intro hl a j ha
  cases hi : i.advance with
  | error e =>
      rw [Reader.step, hi] at ha
      cases ha
  | ok k =>
      rw [Reader.step, hi] at ha
      cases ha
      exact ⟨[i.current], .step hk hi (.refl _), h (hl.isWritten hk)⟩

theorem expect {kind : Kind} {what : Expectation} {R : List Token → Token → Prop}
    (hk : kind ≠ .endOfInput) (h : ∀ t, t.kind = kind → t.IsWritten → R [t] t) :
    (expect kind what).Yields i R := by
  refine peek_bind (ite ?_ ?_)
  · intro hc
    exact step (hc ▸ hk) (h i.current hc)
  · intro _
    exact failAt

theorem accept {kind : Kind} {R : List Token → Bool → Prop} (hk : kind ≠ .endOfInput)
    (hyes : ∀ t, t.kind = kind → R [t] true) (hno : R [] false) : (accept kind).Yields i R := by
  refine at_bind (ite ?_ ?_)
  · intro hc
    have hc := eq_of_beq hc
    refine bind (R := fun ts _ => ts = [i.current]) (step (hc ▸ hk) fun _ => rfl) ?_
    rintro _ ts j rfl
    exact pure (hyes i.current hc)
  · intro _
    exact pure hno

/-- Going on behind a token, or without it. -/
theorem accept_ite {kind : Kind} {p q : Reader β} (hk : kind ≠ .endOfInput)
    (hyes : ∀ t j, t.kind = kind → p.Yields j fun us b => P (t :: us) b) (hno : q.Yields i P) :
    (Reader.accept kind >>= fun b => if b = true then p else q).Yields i P := by
  intro hl b j hb
  by_cases hc : i.current.kind = kind
  · have hyes' : (Reader.step >>= fun _ => p).Yields i P := by
      refine bind (R := fun ts _ => ts = [i.current]) (step (hc ▸ hk) fun _ => rfl) ?_
      rintro _ ts j rfl
      exact hyes i.current j hc
    refine hyes' hl b j ?_
    rw [← hb]
    simp only [Reader.accept, at?, Bind.bind, StateT.bind, Except.bind, hc, beq_self_eq_true,
      if_true]
    cases Reader.step i <;> rfl
  · refine hno hl b j ?_
    rw [← hb]
    have hf : (i.current.kind == kind) = false := beq_false_of_ne hc
    simp only [Reader.accept, at?, Bind.bind, StateT.bind, Except.bind, hf]
    rfl

/-- Looking ahead takes nothing. -/
theorem look_bind (hr : ∀ a j, r i = .ok (a, j) → j = i) (h : ∀ a, (f a).Yields i P) :
    (r >>= f).Yields i P := by
  intro hl b k hb
  cases ha : r i with
  | error e =>
      simp only [Bind.bind, StateT.bind, ha, Except.bind] at hb
      cases hb
  | ok p =>
      obtain ⟨a, j⟩ := p
      simp only [Bind.bind, StateT.bind, ha, Except.bind] at hb
      rw [hr a j ha] at hb
      exact h a hl b k hb

theorem ahead_bind (h : ∀ a, (f a).Yields i P) : (ahead r >>= f).Yields i P := by
  refine look_bind ?_ h
  intro a j ha
  cases hr : r i with
  | error e =>
      rw [Reader.ahead, hr] at ha
      cases ha
  | ok p =>
      rw [Reader.ahead, hr] at ha
      cases ha
      rfl

theorem lift {x : Except Failure α} (h : ∀ a, x = .ok a → R [] a) : (lift x).Yields i R := by
  intro _ a j ha
  cases x with
  | error e => cases ha
  | ok b =>
      cases ha
      exact ⟨[], .refl i, h _ rfl⟩

theorem size {R : List Token → Nat → Prop} (h : ∀ n, R [] n) : size.Yields i R := by
  intro _ n j hn
  cases hn
  exact ⟨[], .refl i, h i.size⟩

end Yields

/-- Leaving a token of a kind behind. -/
theorem expect_yields {kind : Kind} {what : Expectation} (hk : kind ≠ .endOfInput) :
    (expect kind what).Yields i fun ts t => t.kind = kind ∧ ts = [t] :=
  Yields.expect hk fun _ h _ => ⟨h, rfl⟩

/-- Leaving a token behind whose kind is known. -/
theorem step_yields {kind : Kind} (hk : kind ≠ .endOfInput) (h : i.current.kind = kind) :
    step.Yields i fun ts t => t.kind = kind ∧ ts = [t] :=
  Yields.step (h ▸ hk) fun _ => ⟨h, rfl⟩

/-! ## Repetitions -/

open Grammar (Phrase Separated Listed Repeated)

/-- Items keep an invariant of the items read so far. -/
theorem separatedWithin_yields {sep : Kind} {item : List α → Reader α} {R : Phrase α}
    {I : List α → Prop} (hsep : sep ≠ .endOfInput)
    (hitem : ∀ before i, I before →
      (item before).Yields i fun ts a => R ts a ∧ I (before ++ [a])) :
    ∀ (bound : Nat) (before : List α) (i : Input), I before →
      (separatedWithin sep item bound before).Yields i
        fun ts as => Separated sep R ts as ∧ I (before ++ as) := by
  intro bound
  induction bound with
  | zero =>
      intro before i hb
      refine Yields.bind (hitem before i hb) ?_
      rintro a ts j ⟨ha, hi⟩
      refine Yields.pure ⟨?_, hi⟩
      rw [List.append_nil]
      exact .last ha
  | succ bound ih =>
      intro before i hb
      refine Yields.bind (hitem before i hb) ?_
      rintro a ts j ⟨ha, hi⟩
      refine Yields.accept_ite hsep ?_ ?_
      · intro s k hs
        refine Yields.bind (ih (before ++ [a]) k hi) ?_
        rintro as us l ⟨has, hi'⟩
        refine Yields.pure ⟨?_, by simpa using hi'⟩
        rw [List.append_nil]
        exact .next ha hs has
      · refine Yields.pure ⟨?_, hi⟩
        rw [List.append_nil]
        exact .last ha

theorem separated_yields {sep : Kind} {item : List α → Reader α} {R : Phrase α}
    {I : List α → Prop} (hsep : sep ≠ .endOfInput) (h : I [])
    (hitem : ∀ before i, I before →
      (item before).Yields i fun ts a => R ts a ∧ I (before ++ [a])) :
    (separated sep item).Yields i fun ts as => Separated sep R ts as ∧ I as := by
  refine Yields.bind (R := fun ts _ => ts = []) (Yields.size fun _ => rfl) ?_
  rintro n _ j rfl
  exact separatedWithin_yields hsep hitem n [] j h

/-- Items that do not look at the items before them. -/
theorem separated_yields_plain {sep : Kind} {item : Reader α} {R : Phrase α}
    (hsep : sep ≠ .endOfInput) (hitem : ∀ i, item.Yields i R) :
    (separated sep fun _ => item).Yields i (Separated sep R) := by
  have h : (separated sep fun _ => item).Yields i fun ts as => Separated sep R ts as ∧ True :=
    separated_yields (I := fun _ => True) hsep trivial
      fun _ i _ => (hitem i).mono fun _ _ h => ⟨h, trivial⟩
  exact h.mono fun _ _ h => h.1

/-- Items up to the mark that closes them, or none. -/
theorem listed_yields {sep close : Kind} {item : List α → Reader α} {k : List α → Reader β}
    {R : Phrase α} {I : List α → Prop} (hsep : sep ≠ .endOfInput) (h : I [])
    (hitem : ∀ before i, I before →
      (item before).Yields i fun ts a => R ts a ∧ I (before ++ [a]))
    (hk : ∀ as ts j, Listed sep R ts as → I as → (k as).Yields j fun us b => P (ts ++ us) b) :
    (at? close >>= fun b =>
      if b = true then Pure.pure [] >>= k else separated sep item >>= k).Yields i P := by
  refine Yields.at_bind (Yields.ite ?_ ?_)
  · intro _
    exact hk [] [] i .none h
  · intro _
    refine Yields.bind (separated_yields hsep h hitem) ?_
    rintro as ts j ⟨hs, hi⟩
    exact hk as ts j (.some hs) hi

theorem repeatedWithin_yields {begins : Kind → Bool} {item : Reader α} {R : Phrase α}
    (hitem : ∀ i, item.Yields i R) :
    ∀ (bound : Nat) (i : Input), (repeatedWithin begins item bound).Yields i (Repeated R) := by
  intro bound
  induction bound with
  | zero =>
      intro i
      exact Yields.pure .nil
  | succ bound ih =>
      intro i
      refine Yields.peek_bind (Yields.ite ?_ ?_)
      · intro _
        refine Yields.bind (hitem i) ?_
        intro a ts j ha
        refine Yields.bind (ih j) ?_
        intro as us k has
        refine Yields.pure ?_
        rw [List.append_nil]
        exact .cons ha has
      · intro _
        exact Yields.pure .nil

theorem repeated_yields {begins : Kind → Bool} {item : Reader α} {R : Phrase α}
    (hitem : ∀ i, item.Yields i R) : (repeated begins item).Yields i (Repeated R) := by
  refine Yields.bind (R := fun ts _ => ts = []) (Yields.size fun _ => rfl) ?_
  rintro n _ j rfl
  exact repeatedWithin_yields hitem n j

end Reader

end TypedPrompt
