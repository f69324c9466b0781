/-
# `Proofs.Reading.Leaves` — what a reader leaves of the tokens in front of it

The other direction of `Yields`.  `Reader.Leaves eof r ts us Q` says that a reader
in front of the tokens `ts` answers, with an answer of which `Q` holds, and that it
leaves `us`.  The rules again follow the primitives.

The lemmas about repetitions are about greedy readers.  An item need not take all
that it could be followed by; what it leaves is described by `T`, and the repetition
goes on as long as the next token lets it.  Between brackets nothing of the kind can
happen, and items are taken as they are derived.
-/
import TypedPrompt.Proofs.Reading.Tokens

namespace TypedPrompt

/-- A token for the end of the input. -/
abbrev EndToken := { t : Token // t.kind = .endOfInput }

/-- The kind of the next token. -/
def nextKind : List Token → Kind
  | [] => .endOfInput
  | t :: _ => t.kind

@[simp] theorem nextKind_nil : nextKind [] = .endOfInput := rfl

@[simp] theorem nextKind_cons (t : Token) (ts : List Token) : nextKind (t :: ts) = t.kind := rfl

/-- Behind some tokens comes the first of them, or what follows them. -/
theorem nextKind_append_cases (ts us : List Token) :
    (ts = [] ∧ nextKind (ts ++ us) = nextKind us) ∨ nextKind (ts ++ us) = nextKind ts := by
  cases ts with
  | nil => exact .inl ⟨rfl, rfl⟩
  | cons t ts => exact .inr rfl

namespace Grammar

variable {ts : List Token}

/-- Items begin as an item does. -/
theorem Separated.nextKind_eq {α : Type} {sep kind : Kind} {R : Phrase α} {as : List α}
    (h : Separated sep R ts as)
    (hR : ∀ us a, R us a → nextKind us = kind) (hk : kind ≠ .endOfInput) (rest : List Token) :
    nextKind (ts ++ rest) = kind := by
  have front : ∀ us a more, R us a → nextKind (us ++ more) = kind := by
    intro us a more ha
    rcases nextKind_append_cases us more with ⟨rfl, -⟩ | h
    · exact absurd (hR [] a ha).symm hk
    · rw [h]
      exact hR us a ha
  cases h with
  | last ha => exact front _ _ _ ha
  | next ha _ _ =>
      rw [List.append_assoc]
      exact front _ _ _ ha

theorem Named.nextKind_eq {n : NamedType} (h : Named ts n) :
    nextKind ts = .name := by
  cases h with
  | intro hn _ _ _ _ => exact hn

theorem LambdaParameter.nextKind_eq {file : String} {p : Parameter Expr}
    (h : LambdaParameter file ts p) : nextKind ts = .name := by
  cases h with
  | intro hn _ _ => exact hn

theorem LetBinding.nextKind_eq {file : String} {b : Binding Expr} (h : LetBinding file ts b) :
    nextKind ts = .name := by
  cases h with
  | intro hn _ _ _ => exact hn

end Grammar

namespace Input

/-- The input in front of some tokens. -/
def ofList (eof : EndToken) : List Token → Input
  | [] => ⟨eof.val, .finish eof.val⟩
  | t :: ts => ⟨t, Tokens.ofList eof.val ts⟩

variable (eof : EndToken)

theorem ofTokens_ofList (ts : List Token) :
    ofTokens (Tokens.ofList eof.val ts) = .ok (ofList eof ts) := by
  cases ts <;> rfl

theorem advance_ofList (t : Token) (ts : List Token) :
    (ofList eof (t :: ts)).advance = .ok (ofList eof ts) :=
  ofTokens_ofList eof ts

theorem current_kind (ts : List Token) : (ofList eof ts).current.kind = nextKind ts := by
  cases ts with
  | nil => exact eof.property
  | cons t ts => rfl

theorem length_ofList (ts : List Token) : (Tokens.ofList eof.val ts).length = ts.length := by
  induction ts with
  | nil => rfl
  | cons t ts ih => exact congrArg (· + 1) ih

theorem size_ofList {ts : List Token} (h : nextKind ts ≠ .endOfInput) :
    (ofList eof ts).size = ts.length := by
  rw [size, current_kind, if_neg h]
  cases ts with
  | nil => exact absurd rfl h
  | cons t ts => exact congrArg (· + 1) (length_ofList eof ts)

end Input

namespace Reader

variable {α β : Type} {eof : EndToken} {r s : Reader α} {f : α → Reader β}
  {ts us vs : List Token} {t : Token} {Q : α → Prop} {P : β → Prop}

/-- In front of the first tokens the reader answers, and it leaves the second ones. -/
def Leaves (eof : EndToken) (r : Reader α) (ts us : List Token) (Q : α → Prop) : Prop :=
  ∃ a, r (Input.ofList eof ts) = .ok (a, Input.ofList eof us) ∧ Q a

namespace Leaves

theorem bind (h : Leaves eof r ts us Q) (hf : ∀ a, Q a → Leaves eof (f a) us vs P) :
    Leaves eof (r >>= f) ts vs P := by
  obtain ⟨a, ha, hq⟩ := h
  obtain ⟨b, hb, hp⟩ := hf a hq
  refine ⟨b, ?_, hp⟩
  simp only [Bind.bind, StateT.bind, Except.bind, ha]
  exact hb

theorem mono {Q' : α → Prop} (h : Leaves eof r ts us Q) (hq : ∀ a, Q a → Q' a) :
    Leaves eof r ts us Q' := by
  obtain ⟨a, ha, h⟩ := h
  exact ⟨a, ha, hq a h⟩

theorem pure {a : α} (h : Q a) : Leaves eof (Pure.pure a) ts ts Q := ⟨a, rfl, h⟩

theorem ite_pos {c : Prop} [Decidable c] (hc : c) (h : Leaves eof r ts us Q) :
    Leaves eof (if c then r else s) ts us Q := by
  rw [if_pos hc]
  exact h

theorem ite_neg {c : Prop} [Decidable c] (hc : ¬ c) (h : Leaves eof s ts us Q) :
    Leaves eof (if c then r else s) ts us Q := by
  rw [if_neg hc]
  exact h

theorem peek_bind {f : Token → Reader β} (h : Leaves eof (f t) (t :: ts) us P) :
    Leaves eof (peek >>= f) (t :: ts) us P := h

/-- Looking at the kind of the next token. -/
theorem at_bind {kind : Kind} {f : Bool → Reader β}
    (h : Leaves eof (f (nextKind ts == kind)) ts us P) : Leaves eof (at? kind >>= f) ts us P := by
  rw [← Input.current_kind eof] at h
  exact h

theorem look_bind {x : Input → Except Failure α} {a : α}
    (hx : x (Input.ofList eof ts) = .ok a) (h : Leaves eof (f a) ts us P) :
    Leaves eof ((fun i => (x i).map fun b => (b, i)) >>= f) ts us P := by
  obtain ⟨b, hb, hp⟩ := h
  refine ⟨b, ?_, hp⟩
  simp only [Bind.bind, StateT.bind, Except.bind, hx, Except.map]
  exact hb

/-- Looking ahead with a reader. -/
theorem ahead_bind (hr : Leaves eof r ts vs Q) (h : ∀ a, Q a → Leaves eof (f a) ts us P) :
    Leaves eof (ahead r >>= f) ts us P := by
  obtain ⟨a, ha, hq⟩ := hr
  obtain ⟨b, hb, hp⟩ := h a hq
  refine ⟨b, ?_, hp⟩
  simp only [Bind.bind, StateT.bind, Except.bind, ahead, ha, Except.map]
  exact hb

theorem lift {x : Except Failure α} {a : α} (hx : x = .ok a) (h : Q a) :
    Leaves eof (lift x) ts ts Q := by
  refine ⟨a, ?_, h⟩
  rw [Reader.lift, hx]
  rfl

theorem step : Leaves eof step (t :: ts) ts (· = t) := by
  refine ⟨t, ?_, rfl⟩
  rw [Reader.step, Input.advance_ofList]
  rfl

theorem expect {kind : Kind} {what : Expectation} (h : t.kind = kind) :
    Leaves eof (expect kind what) (t :: ts) ts (· = t) :=
  peek_bind (ite_pos h step)

theorem accept_yes {kind : Kind} (h : t.kind = kind) :
    Leaves eof (accept kind) (t :: ts) ts (· = true) := by
  refine at_bind (ite_pos (by simp [h]) ?_)
  exact bind step fun _ _ => pure rfl

theorem accept_no {kind : Kind} (h : nextKind ts ≠ kind) :
    Leaves eof (accept kind) ts ts (· = false) :=
  at_bind (ite_neg (by simpa using h) (pure rfl))

/-- Going on behind a token of a kind. -/
theorem accept_ite_yes {kind : Kind} {p q : Reader β} (h : t.kind = kind)
    (hp : Leaves eof p ts us P) :
    Leaves eof (accept kind >>= fun b => if b = true then p else q) (t :: ts) us P := by
  refine bind (accept_yes h) ?_
  rintro _ rfl
  exact hp

/-- Going on without it. -/
theorem accept_ite_no {kind : Kind} {p q : Reader β} (h : nextKind ts ≠ kind)
    (hq : Leaves eof q ts us P) :
    Leaves eof (accept kind >>= fun b => if b = true then p else q) ts us P := by
  refine bind (accept_no h) ?_
  rintro _ rfl
  exact hq

end Leaves

/-! ## Repetitions -/

section Repetitions

variable {rest : List Token}

/-- Items with a separator between them, as long as there is one.  `P` describes
what an item begins, `T` what it leaves; both know the items so far. -/
theorem separatedWithin_leaves {sep : Kind} {item : List α → Reader α}
    {P T : List α → List Token → Prop}
    (hitem : ∀ before ts, P before ts → ∃ us, us.length < ts.length ∧
      Leaves eof (item before) (ts ++ rest) (us ++ rest) fun a => T (before ++ [a]) us)
    (hnext : ∀ before s us, T before (s :: us) → s.kind = sep → P before us)
    (hrest : nextKind rest ≠ sep) :
    ∀ (bound : Nat) (before : List α) (ts : List Token), P before ts → ts.length ≤ bound →
      ∃ us, us.length < ts.length ∧ nextKind (us ++ rest) ≠ sep ∧
        Leaves eof (separatedWithin sep item bound before) (ts ++ rest) (us ++ rest)
          fun as => T (before ++ as) us := by
  intro bound
  induction bound with
  | zero =>
      intro before ts hp hb
      obtain ⟨us, hlt, -⟩ := hitem before ts hp
      omega
  | succ bound ih =>
      intro before ts hp hb
      obtain ⟨us, hlt, a, ha, ht⟩ := hitem before ts hp
      by_cases hs : nextKind (us ++ rest) = sep
      · cases us with
        | nil => exact absurd hs hrest
        | cons s us =>
            rw [List.length_cons] at hlt
            obtain ⟨vs, hlt', hstop, h⟩ := ih _ us (hnext _ s us ht hs) (by omega)
            refine ⟨vs, by omega, hstop, ?_⟩
            refine Leaves.bind ⟨a, ha, rfl⟩ ?_
            rintro _ rfl
            refine Leaves.accept_ite_yes hs ?_
            refine Leaves.bind h ?_
            intro as has
            exact Leaves.pure (by simpa using has)
      · refine ⟨us, hlt, hs, ?_⟩
        refine Leaves.bind ⟨a, ha, rfl⟩ ?_
        rintro _ rfl
        exact Leaves.accept_ite_no hs (Leaves.pure ht)

theorem separated_leaves {sep : Kind} {item : List α → Reader α}
    {P T : List α → List Token → Prop}
    (hitem : ∀ before ts, P before ts → ∃ us, us.length < ts.length ∧
      Leaves eof (item before) (ts ++ rest) (us ++ rest) fun a => T (before ++ [a]) us)
    (hnext : ∀ before s us, T before (s :: us) → s.kind = sep → P before us)
    (hrest : nextKind rest ≠ sep) (hp : P [] ts) (hts : nextKind ts ≠ .endOfInput) :
    ∃ us, us.length < ts.length ∧ nextKind (us ++ rest) ≠ sep ∧
      Leaves eof (separated sep item) (ts ++ rest) (us ++ rest) fun as => T as us := by
  have hk : nextKind (ts ++ rest) ≠ .endOfInput := by
    rcases nextKind_append_cases ts rest with ⟨rfl, -⟩ | h
    · exact absurd rfl hts
    · rw [h]
      exact hts
  have hsize := Input.size_ofList eof hk
  obtain ⟨us, hlt, hstop, h⟩ := separatedWithin_leaves hitem hnext hrest
    (Input.ofList eof (ts ++ rest)).size [] ts hp (by rw [hsize]; simp)
  exact ⟨us, hlt, hstop, h⟩

/-- Items that do not look at the items before them. -/
theorem separated_leaves_plain {sep : Kind} {item : Reader α} {P T : List Token → Prop}
    (hitem : ∀ ts, P ts → ∃ us, us.length < ts.length ∧ T us ∧
      Leaves eof item (ts ++ rest) (us ++ rest) fun _ => True)
    (hnext : ∀ s us, T (s :: us) → s.kind = sep → P us)
    (hrest : nextKind rest ≠ sep) (hp : P ts) (hts : nextKind ts ≠ .endOfInput) :
    ∃ us, us.length < ts.length ∧ T us ∧ nextKind (us ++ rest) ≠ sep ∧
      Leaves eof (separated sep fun _ => item) (ts ++ rest) (us ++ rest) fun _ => True := by
  have hitem' : ∀ (before : List α) (ts : List Token), P ts → ∃ us, us.length < ts.length ∧
      Leaves eof item (ts ++ rest) (us ++ rest) fun _ => T us := by
    intro _ ts h
    obtain ⟨us, hlen, ht, hl⟩ := hitem ts h
    exact ⟨us, hlen, hl.mono fun _ _ => ht⟩
  obtain ⟨us, hlen, hstop, as, has, ht⟩ := separated_leaves (P := fun _ => P) (T := fun _ => T)
    hitem' (fun _ => hnext) hrest hp hts
  exact ⟨us, hlen, ht, hstop, as, has, trivial⟩

theorem peek_next {f : Token → Reader β}
    (h : ∀ t : Token, t.kind = nextKind ts → Leaves eof (f t) ts us P) :
    Leaves eof (peek >>= f) ts us P :=
  h _ (Input.current_kind eof ts)

/-- Where no item begins, nothing is taken. -/
theorem repeatedWithin_stops {begins : Kind → Bool} {item : Reader α}
    (h : begins (nextKind ts) = false) (bound : Nat) :
    Leaves eof (repeatedWithin begins item bound) ts ts (· = []) := by
  cases bound with
  | zero => exact Leaves.pure rfl
  | succ bound =>
      refine peek_next ?_
      intro t ht
      exact Leaves.ite_neg (by simp [ht, h]) (Leaves.pure rfl)

theorem repeated_stops {begins : Kind → Bool} {item : Reader α}
    (h : begins (nextKind ts) = false) : Leaves eof (repeated begins item) ts ts (· = []) :=
  repeatedWithin_stops h _

/-- Items as long as the next token begins one.  `P` describes what is in front of
the repetition at each of its rounds. -/
theorem repeatedWithin_leaves {begins : Kind → Bool} {item : Reader α}
    {P : List Token → Prop}
    (hitem : ∀ ts, P ts → begins (nextKind ts) = true → ∃ us, us.length < ts.length ∧ P us ∧
      Leaves eof item (ts ++ rest) (us ++ rest) fun _ => True)
    (hrest : begins (nextKind rest) = false) :
    ∀ (bound : Nat) (ts : List Token), P ts → ts.length ≤ bound →
      ∃ us, us.length ≤ ts.length ∧ P us ∧ begins (nextKind (us ++ rest)) = false ∧
        Leaves eof (repeatedWithin begins item bound) (ts ++ rest) (us ++ rest)
          fun _ => True := by
  intro bound
  induction bound with
  | zero =>
      intro ts hp hb
      have hts : ts = [] := List.length_eq_zero_iff.mp (by omega)
      subst hts
      exact ⟨[], by simp, hp, hrest, Leaves.pure trivial⟩
  | succ bound ih =>
      intro ts hp hb
      by_cases hs : begins (nextKind (ts ++ rest)) = true
      · have hts : begins (nextKind ts) = true := by
          rcases nextKind_append_cases ts rest with ⟨rfl, h⟩ | h
          · rw [h, hrest] at hs
            cases hs
          · rw [← h]
            exact hs
        obtain ⟨us, hlt, hp', h⟩ := hitem ts hp hts
        obtain ⟨vs, hle, hp'', hstop, h'⟩ := ih us hp' (by omega)
        refine ⟨vs, by omega, hp'', hstop, peek_next ?_⟩
        intro t ht
        refine Leaves.ite_pos (ht ▸ hs) (Leaves.bind h ?_)
        intro a _
        refine Leaves.bind h' ?_
        intro as _
        exact Leaves.pure trivial
      · rw [Bool.not_eq_true] at hs
        exact ⟨ts, by simp, hp, hs, (repeatedWithin_stops hs (bound + 1)).mono fun _ _ => trivial⟩

theorem repeated_leaves {begins : Kind → Bool} {item : Reader α} {P : List Token → Prop}
    (hitem : ∀ ts, P ts → begins (nextKind ts) = true → ∃ us, us.length < ts.length ∧ P us ∧
      Leaves eof item (ts ++ rest) (us ++ rest) fun _ => True)
    (hrest : begins (nextKind rest) = false) (hend : begins .endOfInput = false) (hp : P ts) :
    ∃ us, us.length ≤ ts.length ∧ P us ∧ begins (nextKind (us ++ rest)) = false ∧
      Leaves eof (repeated begins item) (ts ++ rest) (us ++ rest) fun _ => True := by
  by_cases hs : begins (nextKind (ts ++ rest)) = true
  · have hk : nextKind (ts ++ rest) ≠ .endOfInput := by
      intro hk
      rw [hk, hend] at hs
      cases hs
    have hsize := Input.size_ofList eof hk
    exact repeatedWithin_leaves hitem hrest (Input.ofList eof (ts ++ rest)).size ts hp
      (by rw [hsize]; simp)
  · rw [Bool.not_eq_true] at hs
    exact ⟨ts, by simp, hp, hs, (repeated_stops hs).mono fun _ _ => trivial⟩

end Repetitions

/-! ## Derived items -/

section Derived

open Grammar (Phrase Separated Listed)

variable {γ : Type} {rest : List Token} {sep close : Kind} {item : List α → Reader α}
  {R : Phrase β} {bs : List β}

/-- Derived items in front, where `I` relates the items read so far to them. -/
def ItemsLeft (sep : Kind) (R : Phrase β) (I : List α → List β → Prop) (weight : Nat)
    (before : List α) (ts : List Token) : Prop :=
  ∃ bs, Separated sep R ts bs ∧ Token.weights ts ≤ weight ∧ I before bs

/-- Behind an item there is nothing, or a separator with derived items behind it. -/
def ItemLeaves (sep : Kind) (R : Phrase β) (I : List α → List β → Prop) (weight : Nat)
    (before : List α) (ts : List Token) : Prop :=
  ts = [] ∨ ∃ s us, ts = s :: us ∧ s.kind = sep ∧ ItemsLeft sep R I weight before us

/-- Items that are taken as they are derived, each of which begins with a name. -/
theorem separated_leaves_derived {I : List α → List β → Prop}
    (hR : ∀ us b, R us b → nextKind us = .name)
    (hitem : ∀ before us b bs more, R us b → Token.weights us ≤ Token.weights ts →
      I before (b :: bs) → nextKind more = sep ∨ nextKind more = close →
      Leaves eof (item before) (us ++ more) more fun a => I (before ++ [a]) bs)
    (h : Separated sep R ts bs) (hinv : I [] bs) (hclose : nextKind rest = close)
    (hne : close ≠ sep) : Leaves eof (separated sep item) (ts ++ rest) rest fun _ => True := by
  have hlength : ∀ us b, R us b → 0 < us.length := by
    intro us b hb
    cases us with
    | nil => cases hR [] b hb
    | cons u us => simp
  have hstep : ∀ before us, ItemsLeft sep R I (Token.weights ts) before us →
      ∃ vs, vs.length < us.length ∧ Leaves eof (item before) (us ++ rest) (vs ++ rest)
        fun a => ItemLeaves sep R I (Token.weights ts) (before ++ [a]) vs := by
    rintro before us ⟨bs, hs, hw, hi⟩
    cases hs with
    | last hb =>
        refine ⟨[], hlength us _ hb, ?_⟩
        exact (hitem before us _ [] rest hb hw hi (.inr hclose)).mono fun _ _ => .inl rfl
    | @next us vs s b bs hb hk hs =>
        have := hlength us b hb
        rw [Token.weights_append, Token.weights_cons] at hw
        refine ⟨s :: vs, by simp; omega, ?_⟩
        have h := hitem before us b bs (s :: vs ++ rest) hb (by omega) hi (.inl hk)
        rw [List.append_assoc]
        exact h.mono fun a ha => .inr ⟨s, vs, rfl, hk, bs, hs, by omega, ha⟩
  have hnext : ∀ before s us, ItemLeaves sep R I (Token.weights ts) before (s :: us) →
      s.kind = sep → ItemsLeft sep R I (Token.weights ts) before us := by
    rintro before s us (h | ⟨s', vs, h, hk, hp⟩) hs
    · cases h
    · cases h
      exact hp
  have hts : nextKind ts = .name := by
    have hk := h.nextKind_eq hR (by simp) []
    rwa [List.append_nil] at hk
  obtain ⟨us, -, hstop, as, has, ht⟩ := separated_leaves hstep hnext (by rwa [hclose])
    ⟨bs, h, Nat.le_refl _, hinv⟩ (by simp [hts])
  rcases ht with rfl | ⟨s, vs, rfl, hk, -⟩
  · exact ⟨as, has, trivial⟩
  · exact absurd hk hstop

/-- A name that is distinct from those before it and behind it. -/
theorem fresh_name {names more : List String} {name : String}
    (h : (names ++ name :: more).Nodup) : name ∉ names := by
  intro hm
  exact (List.nodup_append.mp h).2.2 _ hm _ List.mem_cons_self rfl

/-- Items with distinct names, for a reader that refuses the names before an item. -/
theorem separated_leaves_distinct (name : α → String) {key : β → String}
    (hR : ∀ us b, R us b → nextKind us = .name)
    (hitem : ∀ before us b more, R us b → Token.weights us ≤ Token.weights ts →
      key b ∉ before.map name → nextKind more = sep ∨ nextKind more = close →
      Leaves eof (item before) (us ++ more) more (name · = key b))
    (h : Separated sep R ts bs) (hd : (bs.map key).Nodup) (hclose : nextKind rest = close)
    (hne : close ≠ sep) : Leaves eof (separated sep item) (ts ++ rest) rest fun _ => True := by
  -- the names read so far and those of the items that are left are distinct
  refine separated_leaves_derived (I := fun before bs => (before.map name ++ bs.map key).Nodup)
    hR ?_ h hd hclose hne
  intro before us b bs more hb hle hi hmore
  refine (hitem before us b more hb hle (fresh_name hi) hmore).mono ?_
  intro a ha
  simpa [ha] using hi

/-- Items up to the mark that closes them, or none. -/
theorem listed_leaves {k : List α → Reader γ} {P : γ → Prop} (h : Listed sep R ts bs)
    (hR : ∀ us b, R us b → nextKind us = .name) (hclose : nextKind rest = close)
    (hne : close ≠ .name)
    (hitems : Separated sep R ts bs →
      Leaves eof (separated sep item) (ts ++ rest) rest fun _ => True)
    (hk : ∀ as, Leaves eof (k as) rest us P) :
    Leaves eof (at? close >>= fun b =>
      if b = true then Pure.pure [] >>= k else separated sep item >>= k) (ts ++ rest) us P := by
  cases h with
  | none => exact Leaves.at_bind (Leaves.ite_pos (by simp [hclose]) (hk []))
  | some h =>
      have hts := h.nextKind_eq hR (by simp) rest
      refine Leaves.at_bind (Leaves.ite_neg (by simpa [hts] using hne.symm) ?_)
      exact Leaves.bind (hitems h) fun as _ => hk as

end Derived

end Reader

end TypedPrompt
