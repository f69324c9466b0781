/-
# `Proofs.Reading.Tokens` — what is known of the tokens of a source

Three facts about tokens that were cut from a source, which readers rely on
without checking them.  Only the last token is the end of the input.  A number
is written with digits alone or with a point among them.  And tokens cannot be
larger than their source: `Token.weight` counts a text literal with its text, so
that the body of an interpolation, cut into tokens again, weighs less than the
literal it stands in.
-/
import TypedPrompt.Proofs.Reading.Grammar

namespace TypedPrompt

/-! ## Numbers -/

/-- If it is a number, it is all digits or has a point with digits behind it. -/
def Token.IsWritten (t : Token) : Prop :=
  t.kind = .number →
    (∀ c ∈ t.text.toList, Text.isDigit c = true) ∨ (Reading.numeral t).fraction.isSome = true

namespace Numeral

theorem spanDigits_all (cs : List Char) : ∀ c ∈ (spanDigits cs).1, Text.isDigit c = true := by
  exact List.all_eq_true.mp List.all_takeWhile

theorem spanDigits_of_all {ds rest : List Char} (h : ∀ c ∈ ds, Text.isDigit c = true)
    (hrest : ∀ c ∈ rest.head?, Text.isDigit c = false) :
    spanDigits (ds ++ rest) = (ds, rest) := by
  rw [spanDigits, List.takeWhile_append_of_pos h, List.dropWhile_append_of_pos h]
  cases rest with
  | nil => simp
  | cons c cs =>
      have hc := hrest c (by simp)
      simp [hc]

/-- Digits and nothing behind them. -/
theorem spanDigits_of_digits {ds : List Char} (h : ∀ c ∈ ds, Text.isDigit c = true) :
    spanDigits ds = (ds, []) := by
  have hs := spanDigits_of_all h (show ∀ c ∈ ([] : List Char).head?, _ by simp)
  rwa [List.append_nil] at hs

theorem scanFraction_some {cs fraction rest : List Char}
    (h : scanFraction cs = (some fraction, rest)) :
    fraction ≠ [] ∧ ∀ c ∈ fraction, Text.isDigit c = true := by
  unfold scanFraction at h
  split at h
  · next tail =>
      split at h
      · simp at h
      · next ds _ hne hs =>
          simp only [Prod.mk.injEq, Option.some.injEq] at h
          obtain ⟨rfl, -⟩ := h
          constructor
          · exact hne
          · intro c hc
            exact spanDigits_all tail c (by rw [hs]; exact hc)
  · simp at h

theorem scanFraction_point {ds : List Char} (hne : ds ≠ [])
    (h : ∀ c ∈ ds, Text.isDigit c = true) : scanFraction ('.' :: ds) = (some ds, []) := by
  rw [scanFraction, spanDigits_of_digits h]
  cases ds with
  | nil => exact absurd rfl hne
  | cons => rfl

/-- A numeral has a fraction only behind a point. -/
theorem point_mem_of_fraction {cs : List Char}
    (h : (scanFraction (spanDigits cs).2).1.isSome = true) : '.' ∈ cs := by
  unfold scanFraction at h
  split at h
  · next tail ht =>
      have hm : '.' ∈ (spanDigits cs).2 := by
        rw [ht]
        simp
      exact List.dropWhile_sublist _ |>.subset hm
  · simp at h

end Numeral

namespace Reading

theorem numeral_of_digits {t : Token} (h : ∀ c ∈ t.text.toList, Text.isDigit c = true) :
    numeral t = ⟨false, t.text.toList, none, none⟩ := by
  simp [numeral, Numeral.spanDigits_of_digits h, Numeral.scanFraction]

/-- A number without a point has no fraction. -/
theorem numeral_fraction_eq_none {t : Token} (h : '.' ∉ t.text.toList) :
    (numeral t).fraction = none := by
  cases hf : (numeral t).fraction with
  | none => rfl
  | some ds =>
      have hs : (Numeral.scanFraction (Numeral.spanDigits t.text.toList).2).1.isSome = true := by
        rw [show (Numeral.scanFraction (Numeral.spanDigits t.text.toList).2).1 = some ds from hf]
        rfl
      exact absurd (Numeral.point_mem_of_fraction hs) h

theorem isDigit_point : Text.isDigit '.' = false := by
  decide

/-- A number without a fraction has no point, and all of it is its digits. -/
theorem digits_of_fraction_eq_none {t : Token} (ht : t.IsWritten) (hk : t.kind = .number)
    (h : (numeral t).fraction = none) :
    '.' ∉ t.text.toList ∧ (numeral t).whole = t.text.toList := by
  rcases ht hk with hd | hf
  · constructor
    · intro hm
      have := hd '.' hm
      rw [isDigit_point] at this
      cases this
    · rw [numeral_of_digits hd]
  · rw [h] at hf
    cases hf

end Reading

/-! ## Weight -/

namespace Token

/-- A token, with the text in it if there may be tokens in that text. -/
def weight (t : Token) : Nat :=
  if t.kind = .string ∨ t.kind = .template then t.text.toList.length + 1 else 1

theorem weight_pos (t : Token) : 1 ≤ t.weight := by
  unfold weight
  split <;> omega

/-- The weight of tokens. -/
def weights : List Token → Nat
  | [] => 0
  | t :: ts => t.weight + weights ts

@[simp] theorem weights_nil : weights [] = 0 := rfl

@[simp] theorem weights_cons (t : Token) (ts : List Token) :
    weights (t :: ts) = t.weight + weights ts := rfl

@[simp] theorem weights_append (ts us : List Token) :
    weights (ts ++ us) = weights ts + weights us := by
  induction ts with
  | nil => simp
  | cons t ts ih => simp [ih, Nat.add_assoc]

end Token

namespace Lexeme

theorem splitString_length {cs text raw rest : List Char}
    (h : splitString cs = some (text, raw, rest)) : text.length < raw.length := by
  fun_induction splitString cs generalizing text raw rest with
  | case1 => simp at h
  | case2 =>
      simp only [Option.some.injEq, Prod.mk.injEq] at h
      simp [← h.1, ← h.2.1]
  | case3 c cs ih =>
      obtain ⟨⟨t, r, r'⟩, hs, he⟩ := Option.map_eq_some_iff.1 h
      simp only [Prod.mk.injEq] at he
      have := ih hs
      simp only [← he.1, ← he.2.1, List.length_cons]
      omega
  | case4 => simp at h
  | case5 c cs _ _ _ ih =>
      obtain ⟨⟨t, r, r'⟩, hs, he⟩ := Option.map_eq_some_iff.1 h
      simp only [Prod.mk.injEq] at he
      have := ih hs
      simp only [← he.1, ← he.2.1, List.length_cons]
      omega

/-- The token of a lexeme, wherever it stands. -/
def token (l : Lexeme) (start stop : Position) : Token :=
  ⟨l.kind, String.ofList l.text, start, stop⟩

theorem wordKind_cases (s : String) :
    (∃ k, wordKind s = .keyword k) ∨ wordKind s = .boolean ∨ wordKind s = .name := by
  unfold wordKind
  split
  · exact .inl ⟨_, rfl⟩
  · split
    · exact .inr (.inl rfl)
    · exact .inr (.inr rfl)

theorem scanSymbol_kind {c : Char} {cs : List Char} {l : Lexeme} (h : scanSymbol c cs = .ok l) :
    ∃ s, l.kind = .symbol s := by
  unfold scanSymbol at h
  cases hs : Symbol.ofChar? c <;> cases cs with
  | nil => simp [hs] at h <;> simp [← h]
  | cons d rest => cases hp : Symbol.ofPair? c d <;> simp [hs, hp] at h <;> simp [← h]

/-- What a lexeme is, by its kind: a literal with less text than characters, a
number, or one of the kinds without anything in them. -/
theorem scan_cases {c : Char} {cs : List Char} {l : Lexeme} (h : scan c cs = .ok l) :
    ((l.kind = .string ∨ l.kind = .template) ∧ l.text.length < l.raw.length)
      ∨ l = scanNumber (c :: cs)
      ∨ (∃ k, l.kind = .keyword k) ∨ l.kind = .boolean ∨ l.kind = .name
      ∨ ∃ s, l.kind = .symbol s := by
  unfold scan at h
  split at h
  · left
    split at h
    · unfold scanTemplate at h
      split at h <;> cases h
      exact ⟨.inr rfl, by simp [tripleQuote]; omega⟩
    · unfold scanString at h
      split at h
      · next hs =>
          cases h
          have := splitString_length hs
          exact ⟨.inl rfl, by simp; omega⟩
      · cases h
  · right
    split at h
    · cases h
      exact .inl rfl
    · right
      split at h
      · cases h
        rcases wordKind_cases (String.ofList (c :: cs.takeWhile Text.continuesName)) with h | h | h
        · exact .inl h
        · exact .inr (.inl h)
        · exact .inr (.inr (.inl h))
      · exact .inr (.inr (.inr (scanSymbol_kind h)))

theorem scanNumber_kind (cs : List Char) : (scanNumber cs).kind = .number := by
  unfold scanNumber
  split
  split <;> rfl

/-- A number is lexed as digits, or as digits around a point. -/
theorem scanNumber_isWritten (cs : List Char) (start stop : Position) :
    ((scanNumber cs).token start stop).IsWritten := by
  have hd := Numeral.spanDigits_all cs
  intro _
  simp only [scanNumber, token]
  split
  · next fraction rest hf =>
      right
      obtain ⟨hne, hds⟩ := Numeral.scanFraction_some hf
      have hs : Numeral.spanDigits ((Numeral.spanDigits cs).1 ++ '.' :: fraction)
          = ((Numeral.spanDigits cs).1, '.' :: fraction) := by
        refine Numeral.spanDigits_of_all hd ?_
        simp [Reading.isDigit_point]
      simp [Reading.numeral, hs, Numeral.scanFraction_point hne hds]
  · left
    simpa using hd

theorem isWritten_of_scan {c : Char} {cs : List Char} {l : Lexeme} (h : scan c cs = .ok l)
    (start stop : Position) : (l.token start stop).IsWritten := by
  rcases scan_cases h with ⟨hk | hk, -⟩ | rfl | ⟨k, hk⟩ | hk | hk | ⟨s, hk⟩
  · simp [Token.IsWritten, token, hk]
  · simp [Token.IsWritten, token, hk]
  · exact scanNumber_isWritten (c :: cs) start stop
  all_goals simp [Token.IsWritten, token, hk]

/-- A token weighs no more than the characters it is made of. -/
theorem weight_le {c : Char} {cs : List Char} {l : Lexeme} (h : scan c cs = .ok l)
    (start stop : Position) : (l.token start stop).weight ≤ l.raw.length := by
  have hraw := List.length_pos_iff.2 (scan_raw_ne_nil h)
  unfold Token.weight
  split
  · next hk =>
      rcases scan_cases h with ⟨-, hl⟩ | rfl | ⟨k, hk'⟩ | hk' | hk' | ⟨s, hk'⟩
      · simp only [token, String.toList_ofList]
        omega
      · simp [token, scanNumber_kind] at hk
      all_goals simp [token, hk'] at hk
  · exact hraw

end Lexeme

/-! ## Sources -/

namespace Tokens

/-- The tokens in front of the end are determined by all tokens. -/
theorem ofList_injective {eof eof' : Token} {ts us : List Token}
    (h : ofList eof ts = ofList eof' us) : ts = us := by
  induction ts generalizing us with
  | nil =>
      cases us with
      | nil => rfl
      | cons u us => cases h
  | cons t ts ih =>
      cases us with
      | nil => cases h
      | cons u us =>
          have h : Tokens.cons t (ofList eof ts) = .cons u (ofList eof' us) := h
          injection h with ht hts
          rw [ht, ih hts]

/-- Tokens with others in front of them. -/
def prepend (ts : List Token) (rest : Tokens) : Tokens := ts.foldr .cons rest

@[simp] theorem prepend_nil (rest : Tokens) : prepend [] rest = rest := rfl

@[simp] theorem prepend_cons (t : Token) (ts : List Token) (rest : Tokens) :
    prepend (t :: ts) rest = .cons t (prepend ts rest) := rfl

@[simp] theorem prepend_append (ts us : List Token) (rest : Tokens) :
    prepend (ts ++ us) rest = prepend ts (prepend us rest) := by
  simp [prepend]

/-- In front of the end alone, they are all tokens. -/
theorem ofList_append (eof : Token) (ts us : List Token) :
    ofList eof (ts ++ us) = prepend ts (ofList eof us) :=
  prepend_append ts us (.finish eof)

/-- Only the last token is the end of the input, and numbers are written as such. -/
def IsLexed : Tokens → Prop
  | cons t rest => t.kind ≠ .endOfInput ∧ t.IsWritten ∧ IsLexed rest
  | finish t => t.kind = .endOfInput
  | fault _ => True

end Tokens

namespace Cursor

/-- A token is the end of the input, or is lexed and weighs no more than the
characters that the cursor passes. -/
theorem next_token {c c' : Cursor} {t : Token} (h : c.next = (.ok t, c'))
    (hk : t.kind ≠ .endOfInput) : t.IsWritten ∧ t.weight + c'.rest.length ≤ c.rest.length := by
  have hskip := skip_rest_le c
  unfold next take at h
  split at h
  · cases h
    exact absurd rfl hk
  · next ch cs hr =>
      split at h
      · next l hl =>
          cases h
          have hl' := congrArg List.length (Lexeme.scan_append hl)
          rw [List.length_append, ← hr] at hl'
          have := Lexeme.weight_le hl c.skip.position (c.skip.pass l.raw l.rest).position
          exact ⟨Lexeme.isWritten_of_scan hl _ _, by
            simp only [Lexeme.token] at this
            simp only [pass]
            simp only [pass] at this
            omega⟩
      · cases h

theorem drain_isLexed (c : Cursor) : c.drain.1.IsLexed := by
  fun_induction drain c with
  | case1 => trivial
  | case2 c t c' h ht => exact ht
  | case3 c t c' h ht _ ts c'' hd ih =>
      rw [hd] at ih
      exact ⟨ht, (next_token h ht).1, ih⟩

theorem weights_le {c : Cursor} {eof : Token} {ts : List Token}
    (h : c.drain.1 = Tokens.ofList eof ts) : Token.weights ts ≤ c.rest.length := by
  fun_induction drain c generalizing ts with
  | case1 => cases ts <;> cases h
  | case2 c t c' hn ht =>
      cases ts with
      | nil => simp
      | cons => cases h
  | case3 c t c' hn ht _ us c'' hd ih =>
      rw [hd] at ih
      cases ts with
      | nil => cases h
      | cons u ts =>
          cases h
          have := (next_token hn ht).2
          have := ih rfl
          rw [Token.weights_cons]
          omega

end Cursor

/-- The tokens of a source are lexed. -/
theorem tokensOf_isLexed (p : Position) (cs : List Char) : (tokensOf p cs).IsLexed :=
  Cursor.drain_isLexed _

/-- The tokens of a source weigh no more than its characters. -/
theorem weights_tokensOf_le {p : Position} {cs : List Char} {eof : Token} {ts : List Token}
    (h : tokensOf p cs = Tokens.ofList eof ts) : Token.weights ts ≤ cs.length :=
  Cursor.weights_le h

theorem kind_eof_of_tokensOf {p : Position} {cs : List Char} {eof : Token} {ts : List Token}
    (h : tokensOf p cs = Tokens.ofList eof ts) : eof.kind = .endOfInput := by
  have hl := tokensOf_isLexed p cs
  rw [h] at hl
  clear h
  induction ts with
  | nil => exact hl
  | cons t ts ih => exact ih hl.2.2

end TypedPrompt
