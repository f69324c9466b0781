/-
# `Proofs.Reading.Takes` — readers in front of tokens of which the contents are known

A reader that does not fail sees nothing of its tokens but their kinds and texts.
`Reader.Takes r ks js Q` says that `r`, in front of any tokens with the contents `ks`,
answers with an answer of which `Q` holds, and that tokens with the contents `js` are
left.  So what a reader makes of a text can be followed on the contents alone, the way
the text was put together; the rules are those of `Leaves`.

`Takes.separated` is about items that are written one by one: an item is taken exactly
where the separator follows, or what follows all of them.
-/
import TypedPrompt.Proofs.Reading.Leaves
import TypedPrompt.Proofs.Token.Pieces

namespace TypedPrompt

/-- The kind of the first token, of tokens with these contents. -/
def firstKind : List (Kind × String) → Kind
  | [] => .endOfInput
  | k :: _ => k.1

@[simp] theorem firstKind_cons (k : Kind × String) (ks : List (Kind × String)) :
    firstKind (k :: ks) = k.1 := rfl

@[simp] theorem mark_kind (s : Symbol) : (mark s).1 = .symbol s := rfl

@[simp] theorem word_kind (s : String) : (word s).1 = .name := rfl

theorem nextKind_of_contents {ts : List Token} {ks : List (Kind × String)}
    (h : ts.map Token.content = ks) : nextKind ts = firstKind ks := by
  subst h
  cases ts <;> rfl

theorem firstKind_append {ks : List (Kind × String)} (h : firstKind ks ≠ .endOfInput)
    (js : List (Kind × String)) : firstKind (ks ++ js) = firstKind ks := by
  cases ks with
  | nil => exact absurd rfl h
  | cons => rfl

/-- In front of several items stands the first one. -/
theorem exists_intercalate_cons {κ : Type} (sep ks : List κ) (more : List (List κ)) :
    ∃ is, sep.intercalate (ks :: more) = ks ++ is := by
  cases more with
  | nil => exact ⟨[], by simp⟩
  | cons js more => exact ⟨_, by rw [List.intercalate_cons_cons, List.append_assoc]⟩

/-- There are at least as many tokens as separators. -/
theorem length_le_length_intercalate {α : Type} (keys : α → List (Kind × String))
    (sep : Kind × String) (a : α) (more : List α) :
    more.length ≤ ([sep].intercalate ((a :: more).map keys)).length := by
  induction more generalizing a with
  | nil => exact Nat.zero_le _
  | cons b more ih =>
      have := ih b
      simp only [List.map_cons, List.intercalate_cons_cons, List.length_append,
        List.length_cons] at this ⊢
      omega

namespace Reader

variable {α β γ : Type} {r s : Reader α} {f : α → Reader β} {k : Kind × String}
  {ks js is : List (Kind × String)} {Q : α → Prop} {P : β → Prop}

/-- In front of tokens with the first contents the reader answers, and it leaves tokens
with the second ones. -/
def Takes (r : Reader α) (ks js : List (Kind × String)) (Q : α → Prop) : Prop :=
  ∀ (eof : EndToken) (ts : List Token), ts.map Token.content = ks →
    ∃ us, us.map Token.content = js ∧ Leaves eof r ts us Q

namespace Takes

theorem bind (h : Takes r ks js Q) (hf : ∀ a, Q a → Takes (f a) js is P) :
    Takes (r >>= f) ks is P := by
  intro eof ts hts
  obtain ⟨us, hus, a, ha, hq⟩ := h eof ts hts
  obtain ⟨vs, hvs, hl⟩ := hf a hq eof us hus
  refine ⟨vs, hvs, Leaves.bind ⟨a, ha, rfl⟩ ?_⟩
  rintro _ rfl
  exact hl

/-- Going on with an answer that is known. -/
theorem bind_eq {a : α} (h : Takes r ks js (· = a)) (hf : Takes (f a) js is P) :
    Takes (r >>= f) ks is P :=
  bind h fun _ hb => hb ▸ hf

theorem pure {a : α} (h : Q a) : Takes (Pure.pure a) ks ks Q :=
  fun _ ts hts => ⟨ts, hts, Leaves.pure h⟩

theorem ite_pos {c : Prop} [Decidable c] (hc : c) (h : Takes r ks js Q) :
    Takes (if c then r else s) ks js Q := by
  rw [if_pos hc]
  exact h

theorem ite_neg {c : Prop} [Decidable c] (hc : ¬ c) (h : Takes s ks js Q) :
    Takes (if c then r else s) ks js Q := by
  rw [if_neg hc]
  exact h

/-- Looking at the next token. -/
theorem peek_bind {f : Token → Reader β}
    (h : ∀ t : Token, t.kind = firstKind ks → Takes (f t) ks js P) :
    Takes (peek >>= f) ks js P := by
  intro eof ts hts
  have hkind := (Input.current_kind eof ts).trans (nextKind_of_contents hts)
  exact h _ hkind eof ts hts

theorem at_bind {kind : Kind} {f : Bool → Reader β}
    (h : Takes (f (firstKind ks == kind)) ks js P) : Takes (at? kind >>= f) ks js P := by
  intro eof ts hts
  obtain ⟨us, hus, hl⟩ := h eof ts hts
  refine ⟨us, hus, Leaves.at_bind ?_⟩
  rw [nextKind_of_contents hts]
  exact hl

theorem ahead_bind (hr : Takes r ks is Q) (h : ∀ a, Q a → Takes (f a) ks js P) :
    Takes (ahead r >>= f) ks js P := by
  intro eof ts hts
  obtain ⟨vs, -, a, ha, hq⟩ := hr eof ts hts
  obtain ⟨us, hus, hl⟩ := h a hq eof ts hts
  refine ⟨us, hus, Leaves.ahead_bind ⟨a, ha, rfl⟩ ?_⟩
  rintro _ rfl
  exact hl

theorem step : Takes step (k :: ks) ks (·.content = k) := by
  intro eof ts hts
  obtain ⟨t, us, rfl, ht, hus⟩ := List.map_eq_cons_iff.mp hts
  refine ⟨us, hus, Leaves.step.mono ?_⟩
  rintro _ rfl
  exact ht

theorem expect {kind : Kind} {text : String} {what : Expectation} :
    Takes (expect kind what) ((kind, text) :: ks) ks (·.text = text) := by
  refine peek_bind fun t ht => ite_pos ht ?_
  intro eof ts hts
  obtain ⟨us, hus, t, ht, hcontent⟩ := step eof ts hts
  exact ⟨us, hus, t, ht, congrArg Prod.snd hcontent⟩

/-- Going on behind a token of a kind. -/
theorem accept_ite_yes {kind : Kind} {text : String} {p q : Reader β} (hp : Takes p ks js P) :
    Takes (accept kind >>= fun b => if b = true then p else q) ((kind, text) :: ks) js P := by
  intro eof ts hts
  obtain ⟨t, us, rfl, ht, hus⟩ := List.map_eq_cons_iff.mp hts
  obtain ⟨vs, hvs, hl⟩ := hp eof us hus
  exact ⟨vs, hvs, Leaves.accept_ite_yes (congrArg Prod.fst ht) hl⟩

/-- Going on without it. -/
theorem accept_ite_no {kind : Kind} {p q : Reader β} (h : firstKind ks ≠ kind)
    (hq : Takes q ks js P) :
    Takes (accept kind >>= fun b => if b = true then p else q) ks js P := by
  intro eof ts hts
  obtain ⟨us, hus, hl⟩ := hq eof ts hts
  rw [← nextKind_of_contents hts] at h
  exact ⟨us, hus, Leaves.accept_ite_no h hl⟩

theorem accept_no {kind : Kind} (h : firstKind ks ≠ kind) :
    Takes (accept kind) ks ks (· = false) := by
  intro eof ts hts
  rw [← nextKind_of_contents hts] at h
  exact ⟨ts, hts, Leaves.accept_no h⟩

theorem accept_yes {kind : Kind} {text : String} :
    Takes (accept kind) ((kind, text) :: ks) ks (· = true) := by
  intro eof ts hts
  obtain ⟨t, us, rfl, ht, hus⟩ := List.map_eq_cons_iff.mp hts
  exact ⟨us, hus, Leaves.accept_yes (congrArg Prod.fst ht)⟩

/-! ## Repetitions -/

section Repetitions

variable {sep : Symbol} {item : List α → Reader α} {keys : α → List (Kind × String)}
  {as : List α}

/-- The last item is followed by no separator. -/
theorem separatedWithin_single {before : List α} {a : α} (hstop : firstKind js ≠ .symbol sep)
    (h : Takes (item before) ks js (· = a)) (bound : Nat) :
    Takes (separatedWithin (.symbol sep) item bound before) ks js (· = [a]) := by
  cases bound with
  | zero =>
      refine bind_eq h ?_
      exact pure rfl
  | succ bound =>
      refine bind_eq h ?_
      exact accept_ite_no hstop (pure rfl)

theorem separated_single {a : α} (hstop : firstKind js ≠ .symbol sep)
    (h : Takes (item []) ks js (· = a)) :
    Takes (separated (.symbol sep) item) ks js (· = [a]) :=
  fun eof ts hts => separatedWithin_single hstop h (Input.ofList eof ts).size eof ts hts

theorem separatedWithin (hstop : firstKind js ≠ .symbol sep)
    (hitem : ∀ done a more ks, as = done ++ a :: more → (firstKind ks = .symbol sep ∨ ks = js) →
      Takes (item done) (keys a ++ ks) ks (· = a)) :
    ∀ (bound : Nat) (done : List α) (a : α) (more : List α), as = done ++ a :: more →
      more.length ≤ bound →
      Takes (separatedWithin (.symbol sep) item bound done)
        ([mark sep].intercalate ((a :: more).map keys) ++ js) js (· = a :: more) := by
  intro bound
  induction bound with
  | zero =>
      intro done a more has hb
      obtain rfl := List.length_eq_zero_iff.mp (Nat.le_zero.mp hb)
      simpa using separatedWithin_single hstop (hitem done a [] js has (.inr rfl)) 0
  | succ bound ih =>
      intro done a more has hb
      cases more with
      | nil =>
          simpa using separatedWithin_single hstop (hitem done a [] js has (.inr rfl)) (bound + 1)
      | cons b more =>
          have hmore := ih (done ++ [a]) b more (by rw [has, List.append_assoc]; rfl)
            (Nat.le_of_succ_le_succ hb)
          simp only [List.map_cons, List.intercalate_cons_cons, List.append_assoc]
          refine bind_eq (hitem done a (b :: more) _ has (.inl rfl)) ?_
          exact accept_ite_yes (bind_eq hmore (pure rfl))

/-- Items with a separator between them. -/
theorem separated (has : as ≠ []) (hstop : firstKind js ≠ .symbol sep)
    (hstart : firstKind ([mark sep].intercalate (as.map keys) ++ js) ≠ .endOfInput)
    (hitem : ∀ done a more ks, as = done ++ a :: more → (firstKind ks = .symbol sep ∨ ks = js) →
      Takes (item done) (keys a ++ ks) ks (· = a)) :
    Takes (separated (.symbol sep) item) ([mark sep].intercalate (as.map keys) ++ js) js
      (· = as) := by
  obtain ⟨a, more, rfl⟩ := List.exists_cons_of_ne_nil has
  intro eof ts hts
  rw [← nextKind_of_contents hts] at hstart
  -- there is a separator for each further item, so the bound on the rounds is not reached
  have hlength := congrArg List.length hts
  rw [List.length_map, List.length_append] at hlength
  have hle := length_le_length_intercalate keys (mark sep) a more
  have hbound : more.length ≤ (Input.ofList eof ts).size := by
    rw [Input.size_ofList eof hstart]
    omega
  exact separatedWithin hstop hitem (Input.ofList eof ts).size [] a more rfl hbound eof ts hts

/-- Items up to the mark that closes them, or none; each of them begins with a name. -/
theorem listed (close : Symbol) {k : List α → Reader γ} {R : γ → Prop}
    (hclose : firstKind js = .symbol close) (hne : close ≠ sep)
    (hname : ∀ a ∈ as, firstKind (keys a) = .name)
    (hitem : ∀ done a more ks, as = done ++ a :: more → (firstKind ks = .symbol sep ∨ ks = js) →
      Takes (item done) (keys a ++ ks) ks (· = a))
    (hk : Takes (k as) js is R) :
    Takes (at? (.symbol close) >>= fun b =>
        if b = true then Pure.pure [] >>= k else Reader.separated (.symbol sep) item >>= k)
      ([mark sep].intercalate (as.map keys) ++ js) is R := by
  cases as with
  | nil =>
      refine at_bind (ite_pos ?_ hk)
      simp [hclose]
  | cons a more =>
      have hfirst := hname a List.mem_cons_self
      have hstart : firstKind ([mark sep].intercalate ((a :: more).map keys) ++ js) = .name := by
        obtain ⟨is, his⟩ := exists_intercalate_cons [mark sep] (keys a) (more.map keys)
        rw [List.map_cons, his, List.append_assoc, firstKind_append (by simp [hfirst]), hfirst]
      have hstop : firstKind js ≠ .symbol sep := by simpa [hclose] using hne
      refine at_bind (ite_neg (by rw [hstart]; simp) ?_)
      refine bind_eq (separated (List.cons_ne_nil a more) hstop (by rw [hstart]; simp) hitem) ?_
      exact hk

end Repetitions

end Takes

end Reader

end TypedPrompt
