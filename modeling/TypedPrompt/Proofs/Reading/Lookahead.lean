/-
# `Proofs.Reading.Lookahead` — the look-ahead for a lambda is exact

A parenthesis opens the parameters of a lambda or a group.  The look-ahead counts
brackets and nothing else, and yet it is right about both: in front of a lambda it
says so, and in front of a group it says no, unless an arrow or a colon stands behind
the group.  The tokens that a lambda or a group takes have a derivation, in which
brackets balance, so that the scan stops at the parenthesis at which the parameters
or the group end.  What is behind that parenthesis is not looked at any further than
to its first token, and may be cut short by a fault.

The scan moves a stream on, which is put back afterwards.  `Advances` lists what one
step of a stream can be.  A step leaves the source alone, so does the scan, and the
rest of a stream is in its checkpoint.

The whole library is imported for the examples, which `cbv` runs by the equations of core
functions that it finds there.
-/
import Mathlib
import TypedPrompt.Proofs.Reading.AcceptedExpressions
import TypedPrompt.Proofs.Reading.DerivedExpressions
import TypedPrompt.Proofs.Token.Views
import TypedPrompt.Reading.Lookahead

namespace TypedPrompt

open Reading Grammar

/-- A reader that has taken some tokens has had them in front of it, with what is left
behind them. -/
theorem Input.exists_prepend {i k : Input} {l : Token} {ts : List Token} (hl : i.IsLexed)
    (h : i.Reaches (l :: ts) k) :
    ∃ rest, i = ⟨l, Tokens.prepend ts rest⟩ ∧ rest.IsEnded ∧ Input.ofTokens rest = .ok k := by
  obtain ⟨us, hus, ho⟩ := hl
  obtain ⟨rest, rfl, hrest, hk⟩ := Input.eq_prepend_of_reaches hus ho h
  cases ho
  exact ⟨rest, rfl, hrest.isEnded, hk⟩

namespace Reading.TokenStream

variable {s s' : TokenStream}

/-! ## What a step of a stream can be -/

/-- The tokens from the current one on. -/
def tokens (s : TokenStream) : Tokens :=
  if s.current.kind = .endOfInput then .finish s.current else .cons s.current s.cursor.drain.1

theorem tokens_of_end (h : s.current.kind = .endOfInput) : s.tokens = .finish s.current :=
  if_pos h

theorem tokens_of_ne_end (h : s.current.kind ≠ .endOfInput) :
    s.tokens = .cons s.current s.cursor.drain.1 :=
  if_neg h

/-- A reader begins with them. -/
theorem ofTokens_tokens (s : TokenStream) : Input.ofTokens s.tokens = .ok s.input := by
  unfold tokens input
  split <;> rfl

theorem tokens_isEnded (s : TokenStream) : s.tokens.IsEnded := by
  unfold tokens
  split
  · next h => exact h
  · show s.cursor.drain.1.IsEnded
    exact s.cursor.drain_isLexed.isEnded

/-- Behind a token that was cut, they are what the cursor before it had ahead. -/
theorem tokens_behind {source : List Char} {c d : Cursor} {t : Token}
    (hc : c.rest = source.drop c.offset) (h : c.next = (.ok t, d)) :
    tokens ⟨source, d.offset, d.position, t⟩ = c.drain.1 := by
  have hd : d.rest = source.drop d.offset := by
    have hrest := Cursor.next_rest_eq_drop hc
    rwa [h] at hrest
  have hcursor : cursor ⟨source, d.offset, d.position, t⟩ = d := by
    rw [cursor, ← hd]
  by_cases ht : t.kind = .endOfInput
  · rw [Cursor.drain_finish h ht, tokens_of_end ht]
  · rw [Cursor.drain_cons h ht, tokens_of_ne_end ht, hcursor]

/-- At the start of a source, readers see all of its tokens. -/
theorem input_start (p : Position) (source : List Char) :
    (start p source).map input = Input.ofTokens (tokensOf p source) := by
  unfold start tokensOf
  split
  · next t c h =>
      rw [← tokens_behind rfl h]
      exact (ofTokens_tokens _).symm
  · next e c h =>
      rw [Cursor.drain_fault h]
      rfl

/-- What comes of a step of a stream, with the stream behind it. -/
inductive Advances (s : TokenStream) : Except Failure Unit × TokenStream → Prop where
  | finish : s.current.kind = .endOfInput → Advances s (.ok (), s)
  | next {s' : TokenStream} :
      s.current.kind ≠ .endOfInput → s'.source = s.source →
      s.tokens = .cons s.current s'.tokens → Advances s (.ok (), s')
  | fault {s' : TokenStream} {e : LexError} :
      s.current.kind ≠ .endOfInput → s'.source = s.source →
      s.tokens = .cons s.current (.fault e) → Advances s (.error (.lexical e), s')

theorem advances (s : TokenStream) : s.Advances s.advance := by
  unfold advance
  split
  · next hk => exact .finish hk
  · next hk =>
      have ht := tokens_of_ne_end hk
      split
      · next t c h =>
          refine .next hk rfl ?_
          rw [ht, ← tokens_behind rfl h]
          rfl
      · next e c h =>
          refine .fault hk rfl ?_
          rw [ht, Cursor.drain_fault h]

theorem advance_source (s : TokenStream) : s.advance.2.source = s.source := by
  have h := s.advances
  generalize s.advance = r at h ⊢
  cases h with
  | finish _ => rfl
  | next _ hs _ | fault _ hs _ => exact hs

theorem tokens_of_advance (h : s.advance = (.ok (), s')) (hk : s.current.kind ≠ .endOfInput) :
    s.tokens = .cons s.current s'.tokens := by
  have ha := s.advances
  rw [h] at ha
  cases ha with
  | finish hend => exact absurd hend hk
  | next _ _ ht => exact ht

theorem tokens_of_fault {f : Failure} (h : s.advance = (.error f, s')) :
    ∃ e, f = .lexical e ∧ s.tokens = .cons s.current (.fault e) := by
  have ha := s.advances
  rw [h] at ha
  cases ha with
  | fault _ _ ht => exact ⟨_, rfl, ht⟩

/-- A step of a stream is a step of the input that readers see. -/
theorem input_advance (s : TokenStream) :
    s.input.advance = s.advance.1.map fun _ => s.advance.2.input := by
  have hs := s.ofTokens_tokens
  have h := s.advances
  generalize s.advance = r at h
  cases h with
  | finish hk =>
      rw [tokens_of_end hk] at hs
      rw [← Except.ok.inj hs]
      rfl
  | @next s' hk _ ht =>
      rw [ht] at hs
      rw [← Except.ok.inj hs]
      exact s'.ofTokens_tokens
  | fault hk _ ht =>
      rw [ht] at hs
      rw [← Except.ok.inj hs]
      rfl

/-! ## The scan -/

/-- A scan of a stream is the look-ahead over its tokens. -/
theorem scanBrackets_answer (depth : Nat) (s : TokenStream) :
    (s.scanBrackets depth).1 = lookFrom depth s.tokens := by
  -- the scan ends at a fault, at the end, or at the bracket it was looking for (`case4`)
  fun_induction scanBrackets depth s with
  | case1 depth s f s' h =>
      obtain ⟨e, rfl, ht⟩ := tokens_of_fault h
      rw [ht]
      rfl
  | case2 depth s s' h hk =>
      rw [tokens_of_end hk]
      rfl
  | case3 depth s s' h hk _ b hb ho ih =>
      rw [tokens_of_advance h hk, lookFrom_open hb ho]
      exact ih
  | case4 s s' h hk _ b hb ho hc =>
      have ho := Bool.eq_false_of_not_eq_true ho
      rw [tokens_of_advance h hk, lookFrom_last hb ho hc s'.tokens_isEnded s'.ofTokens_tokens]
      rfl
  | case5 s s' h hk _ b hb ho hc depth ih =>
      have ho := Bool.eq_false_of_not_eq_true ho
      rw [tokens_of_advance h hk, lookFrom_close hb ho hc]
      exact ih
  | case6 depth s s' h hk _ b hb ho hc ih =>
      have hplain : s.current.kind.isBracket = false := by
        rw [hb, Kind.isBracket, Bool.eq_false_of_not_eq_true ho, Bool.eq_false_of_not_eq_true hc]
        rfl
      rw [tokens_of_advance h hk, lookFrom_plain hplain]
      exact ih
  | case7 depth s s' h hk _ hb ih =>
      have hplain : s.current.kind.isBracket = false := by
        unfold Kind.isBracket
        split
        · next b hkind => exact absurd hkind (hb b)
        · rfl
      rw [tokens_of_advance h hk, lookFrom_plain hplain]
      exact ih

theorem scanBrackets_source (depth : Nat) (s : TokenStream) :
    (s.scanBrackets depth).2.source = s.source := by
  have step : ∀ {r : Except Failure Unit} {s s' : TokenStream}, s.advance = (r, s') →
      s'.source = s.source := by
    intro r s s' h
    have hs := s.advance_source
    rwa [h] at hs
  fun_induction scanBrackets depth s with
  | case1 _ _ _ _ h | case2 _ _ _ h | case4 _ _ h => exact step h
  | case3 _ _ _ h _ _ _ _ _ ih | case5 _ _ h _ _ _ _ _ _ _ ih | case6 _ _ _ h _ _ _ _ _ _ ih
  | case7 _ _ _ h _ _ _ ih => exact ih.trans (step h)

/-- Behind the parenthesis, the scan decides as the look-ahead of readers does. -/
theorem scanParameters_answer (s : TokenStream) :
    s.scanParameters.1 =
      if s.current.kind = .symbol .rightParen then
        s.input.advance >>= fun k => Pure.pure (followsParameters k.current)
      else if s.current.kind = .name then closesParameters 0 s.current s.input.ahead
      else Pure.pure false := by
  unfold scanParameters
  split
  · rw [input_advance]
    generalize s.advance = r
    obtain ⟨answer, s'⟩ := r
    cases answer <;> rfl
  · split
    · next hn =>
        have hend : s.current.kind ≠ .endOfInput := by
          rw [hn]
          simp
        rw [scanBrackets_answer, tokens_of_ne_end hend, input, if_neg hend]
        rfl
    · rfl

theorem scanParameters_source (s : TokenStream) : s.scanParameters.2.source = s.source := by
  have hs := s.advance_source
  unfold scanParameters
  split
  · generalize s.advance = r at hs ⊢
    obtain ⟨answer, s'⟩ := r
    cases answer <;> exact hs
  · split
    · exact s.scanBrackets_source 0
    · rfl

/-- A stream that is put back is what it was, if its source is. -/
theorem rewind_checkpoint (h : s'.source = s.source) : s'.rewind s.checkpoint = s := by
  obtain ⟨source, offset, position, current⟩ := s
  cases h
  rfl

/-- Looking for a lambda leaves the stream where it is. -/
theorem looksLikeLambda_still (s : TokenStream) : s.looksLikeLambda.2 = s := by
  have hs := s.advance_source
  unfold looksLikeLambda
  generalize s.advance = r at hs ⊢
  obtain ⟨answer, s'⟩ := r
  cases answer with
  | error f => exact rewind_checkpoint hs
  | ok _ => exact rewind_checkpoint (s'.scanParameters_source.trans hs)

/-- It answers what the look-ahead of readers does. -/
theorem looksLikeLambda_answer (s : TokenStream) : s.looksLikeLambda.1 = opensLambda s.input := by
  unfold opensLambda looksLikeLambda
  rw [input_advance]
  generalize s.advance = r
  obtain ⟨answer, s'⟩ := r
  cases answer with
  | error f => rfl
  | ok _ => exact s'.scanParameters_answer

end Reading.TokenStream

namespace Reading

/-! ## Lambdas and groups -/

section Exact

variable {settings : Settings} {levels : Nat} {depth : Int} {i j : Input} {e : Expr}

/-- In front of a lambda, the look-ahead finds one. -/
theorem opensLambda_of_lambda (hl : i.IsLexed)
    (h : lambda settings (Inner.within settings levels depth) i = .ok (e, j)) :
    opensLambda i = .ok true := by
  obtain ⟨ts, hreach, hparams, -⟩ := lambda_yields_parameters
    (expressionWithin_yields settings levels depth) (typeWithin_yields settings.maxNesting levels)
    hl e j h
  cases hparams with
  | @intro l r ps us params hps hr hus =>
      obtain ⟨rest, rfl, hrest, -⟩ := Input.exists_prepend hl hreach
      cases us with
      | nil => cases hus
      | cons u us =>
          rw [Tokens.prepend_append, Tokens.prepend_cons, opensLambda_prepend_parameters hps hr
            (Tokens.isEnded_prepend hrest (u :: us)) rfl]
          exact congrArg Except.ok hus

/-- In front of a group, it finds none, unless what comes behind makes it one. -/
theorem opensLambda_of_group (hl : i.IsLexed) (hk : i.current.kind = .symbol .leftParen)
    (h : group (Inner.within settings levels depth) i = .ok (e, j))
    (hj : followsParameters j.current = false) : opensLambda i = .ok false := by
  obtain ⟨ts, hreach, hgroup⟩ := group_yields
    (expressionWithin_yields settings levels depth) hk hl e j h
  cases hgroup with
  | @intro l r us e hleft he hr =>
      have hfirst := start_nextKind he.start_nil
      obtain ⟨rest, rfl, hrest, hj'⟩ := Input.exists_prepend hl hreach
      rw [Tokens.prepend_append]
      refine opensLambda_prepend_group he ?_ ?_ hr hrest hj' hj
      · intro hp
        rw [hp] at hfirst
        cases hfirst
      · intro hend
        rw [hend] at hfirst
        cases hfirst

end Exact

namespace TokenStream

/-- In front of a parenthesis, what a reader sees of a stream is lexed. -/
theorem input_isLexed {s : TokenStream} (h : s.current.kind = .symbol .leftParen) :
    s.input.IsLexed := by
  have hend : s.current.kind ≠ .endOfInput := by
    rw [h]
    simp
  have hwritten : s.current.IsWritten := by
    intro hnumber
    rw [h] at hnumber
    cases hnumber
  refine ⟨s.tokens, ?_, s.ofTokens_tokens⟩
  rw [tokens_of_ne_end hend]
  exact ⟨hend, hwritten, s.cursor.drain_isLexed⟩

/-- The look-ahead for a lambda is exact, however many levels are left, and nothing of
it shows in the stream. -/
theorem looksLikeLambda_exact (settings : Settings) (levels : Nat) (depth : Int)
    (s : TokenStream) (hs : s.current.kind = .symbol .leftParen) :
    let inner := Inner.within settings levels depth
    (∀ e j, lambda settings inner s.input = .ok (e, j) → s.looksLikeLambda.1 = .ok true)
      ∧ (∀ e j, group inner s.input = .ok (e, j) → followsParameters j.current = false →
          s.looksLikeLambda.1 = .ok false)
      ∧ s.looksLikeLambda.2 = s := by
  intro inner
  have hl : s.input.IsLexed := input_isLexed hs
  have answer : s.looksLikeLambda.1 = opensLambda s.input := s.looksLikeLambda_answer
  refine ⟨?_, ?_, s.looksLikeLambda_still⟩
  · intro e j h
    rw [answer]
    exact opensLambda_of_lambda hl h
  · intro e j h hj
    rw [answer]
    exact opensLambda_of_group hl hs h hj

/-- At a lambda, at a group, and where the scan meets a character that begins no token. -/
theorem looksLikeLambda_exact_sources :
    let inner := Inner.within ⟨"main", 1, 4⟩ 3 0
    let opening : Token := ⟨.symbol .leftParen, "(", ⟨1, 1⟩, ⟨1, 2⟩⟩
    let atLambda : TokenStream := ⟨"(x: list[string]) -> x".toList, 1, ⟨1, 2⟩, opening⟩
    let atGroup : TokenStream := ⟨"(a) b".toList, 1, ⟨1, 2⟩, opening⟩
    let atFault : TokenStream := ⟨"(a $".toList, 1, ⟨1, 2⟩, opening⟩
    (∃ e j, lambda ⟨"main", 1, 4⟩ inner atLambda.input = .ok (e, j))
      ∧ atLambda.looksLikeLambda = (.ok true, atLambda)
      ∧ (∃ e j, group inner atGroup.input = .ok (e, j) ∧ followsParameters j.current = false)
      ∧ atGroup.looksLikeLambda = (.ok false, atGroup)
      ∧ atFault.looksLikeLambda
          = (.error (.lexical ⟨.unexpected '$', ⟨1, 4⟩⟩), atFault) := by
  intro inner opening atLambda atGroup atFault
  let settings : Settings := ⟨"main", 1, 4⟩
  have hlambda : ∃ e j, lambda settings inner atLambda.input = .ok (e, j) := by
    refine ⟨.lambda ⟨⟨1, 1⟩, "main"⟩ [⟨"x", some (.list .string none none), none⟩]
      (.identifier ⟨⟨1, 22⟩, "main"⟩ "x") none,
      ⟨Token.endAt ⟨1, 23⟩, .finish (Token.endAt ⟨1, 23⟩)⟩, ?_⟩
    cbv
  have hgroup : ∃ e j, group inner atGroup.input = .ok (e, j)
      ∧ followsParameters j.current = false := by
    clear hlambda
    refine ⟨.identifier ⟨⟨1, 2⟩, "main"⟩ "a",
      ⟨⟨.name, "b", ⟨1, 5⟩, ⟨1, 6⟩⟩, .finish (Token.endAt ⟨1, 6⟩)⟩, ?_, rfl⟩
    cbv
  have hfault : opensLambda atFault.input = .error (.lexical ⟨.unexpected '$', ⟨1, 4⟩⟩) := by
    clear hlambda hgroup
    cbv
  obtain ⟨e, j, he⟩ := hlambda
  obtain ⟨f, k, hf, hk⟩ := hgroup
  have exact_lambda := looksLikeLambda_exact settings 3 0 atLambda rfl
  have exact_group := looksLikeLambda_exact settings 3 0 atGroup rfl
  have exact_fault := looksLikeLambda_exact settings 3 0 atFault rfl
  refine ⟨⟨e, j, he⟩, ?_, ⟨f, k, hf, hk⟩, ?_, ?_⟩
  · exact Prod.ext_iff.mpr ⟨exact_lambda.1 e j he, exact_lambda.2.2⟩
  · exact Prod.ext_iff.mpr ⟨exact_group.2.1 f k hf hk, exact_group.2.2⟩
  · exact Prod.ext_iff.mpr ⟨atFault.looksLikeLambda_answer.trans hfault, exact_fault.2.2⟩

end TokenStream

end Reading

end TypedPrompt
