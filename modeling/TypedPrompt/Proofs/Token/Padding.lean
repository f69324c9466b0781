/-
# `Proofs.Token.Padding` — blanks around a source

A blank ends every lexeme, so that a source with a blank behind it is cut into the same
tokens (`Cursor.drain_padded`), and a blank in front of it only moves them.  Where no
places are seen, nothing of this is left (`blind_tokensOf_padded`).

What is said here about a lexeme holds with any text behind the blank
(`Lexeme.scan_followed`).
-/
import TypedPrompt.Proofs.Token.Views

namespace TypedPrompt

/-! ## Lexemes in front of a blank -/

section Stops

variable {p : Char → Bool} {b : Char}

theorem takeWhile_append_stop (hb : p b = false) (cs ds : List Char) :
    (cs ++ b :: ds).takeWhile p = cs.takeWhile p := by
  induction cs with
  | nil => simp [hb]
  | cons c cs ih => simp only [List.cons_append, List.takeWhile_cons, ih]

theorem dropWhile_append_stop (hb : p b = false) (cs ds : List Char) :
    (cs ++ b :: ds).dropWhile p = cs.dropWhile p ++ b :: ds := by
  induction cs with
  | nil => simp [hb]
  | cons c cs ih =>
      simp only [List.cons_append, List.dropWhile_cons, ih]
      split <;> rfl

end Stops

namespace Lexeme

/-- The lexeme, with some characters more behind it. -/
def followedBy (l : Lexeme) (ds : List Char) : Lexeme := { l with rest := l.rest ++ ds }

theorem splitString_followed {cs text raw rest : List Char}
    (h : splitString cs = some (text, raw, rest)) (ds : List Char) :
    splitString (cs ++ ds) = some (text, raw, rest ++ ds) := by
  obtain ⟨written, rfl, hw⟩ := splitString_escaped h
  have heq : cs ++ ds = written ++ '"' :: (rest ++ ds) := by
    rw [← splitString_append h]
    simp
  rw [heq, splitString_of_escaped hw]

theorem splitTemplate_followed {cs text rest : List Char}
    (h : splitTemplate cs = some (text, rest)) (ds : List Char) :
    splitTemplate (cs ++ ds) = some (text, rest ++ ds) := by
  have heq : cs ++ ds = text ++ (tripleQuote ++ (rest ++ ds)) := by
    rw [← splitTemplate_append h]
    simp
  rw [heq, splitTemplate_of_first (splitTemplate_first h)]

theorem spanDigits_followed (cs ds : List Char) :
    Numeral.spanDigits (cs ++ ' ' :: ds)
      = ((Numeral.spanDigits cs).1, (Numeral.spanDigits cs).2 ++ ' ' :: ds) := by
  have hb : Text.isDigit ' ' = false := by
    decide
  simp only [Numeral.spanDigits, takeWhile_append_stop hb, dropWhile_append_stop hb]

theorem scanFraction_followed (cs ds : List Char) :
    Numeral.scanFraction (cs ++ ' ' :: ds)
      = ((Numeral.scanFraction cs).1, (Numeral.scanFraction cs).2 ++ ' ' :: ds) := by
  unfold Numeral.scanFraction
  cases cs with
  | nil => rfl
  | cons c cs =>
      by_cases hc : c = '.'
      · subst hc
        simp only [List.cons_append, spanDigits_followed]
        obtain ⟨digits, rest⟩ := Numeral.spanDigits cs
        cases digits <;> rfl
      · simp [hc]

theorem scanNumber_followed (cs ds : List Char) :
    scanNumber (cs ++ ' ' :: ds) = (scanNumber cs).followedBy (' ' :: ds) := by
  unfold scanNumber
  rw [spanDigits_followed]
  simp only
  rw [scanFraction_followed]
  obtain ⟨fraction, rest⟩ := Numeral.scanFraction (Numeral.spanDigits cs).2
  cases fraction <;> rfl

theorem scanWord_followed (c : Char) (cs ds : List Char) :
    scanWord c (cs ++ ' ' :: ds) = (scanWord c cs).followedBy (' ' :: ds) := by
  have hb : Text.continuesName ' ' = false := by
    decide
  simp only [scanWord, followedBy, takeWhile_append_stop hb, dropWhile_append_stop hb]

theorem ofPair?_blank (c : Char) : Symbol.ofPair? c ' ' = none := by
  unfold Symbol.ofPair?
  split <;> simp_all

theorem scanSymbol_followed {c : Char} {cs : List Char} {l : Lexeme} (h : scanSymbol c cs = .ok l)
    (ds : List Char) : scanSymbol c (cs ++ ' ' :: ds) = .ok (l.followedBy (' ' :: ds)) := by
  unfold scanSymbol at h ⊢
  cases cs with
  | nil =>
      cases hc : Symbol.ofChar? c with
      | none => simp [hc] at h
      | some s =>
          simp only [hc, Except.ok.injEq] at h
          simp [ofPair?_blank, ← h, followedBy]
  | cons d cs =>
      cases hp : Symbol.ofPair? c d with
      | some s =>
          simp only [hp, Except.ok.injEq] at h
          simp [hp, ← h, followedBy]
      | none =>
          cases hc : Symbol.ofChar? c with
          | none => simp [hp, hc] at h
          | some s =>
              simp only [hp, hc, Except.ok.injEq] at h
              simp [hp, ← h, followedBy]

theorem scanString_followed {cs : List Char} {l : Lexeme} (h : scanString cs = .ok l)
    (ds : List Char) : scanString (cs ++ ds) = .ok (l.followedBy ds) := by
  unfold scanString at h ⊢
  split at h
  · next hs =>
      cases h
      rw [splitString_followed hs]
      rfl
  · cases h

theorem scanTemplate_followed {cs : List Char} {l : Lexeme} (h : scanTemplate cs = .ok l)
    (ds : List Char) : scanTemplate (cs ++ ds) = .ok (l.followedBy ds) := by
  unfold scanTemplate at h ⊢
  split at h
  · next hs =>
      cases h
      rw [splitTemplate_followed hs]
      rfl
  · cases h

/-- A lexeme ends where a blank follows. -/
theorem scan_followed {c : Char} {cs : List Char} {l : Lexeme} (h : scan c cs = .ok l)
    (ds : List Char) : scan c (cs ++ ' ' :: ds) = .ok (l.followedBy (' ' :: ds)) := by
  unfold scan at h ⊢
  by_cases hq : c = '"'
  · rw [if_pos hq] at h ⊢
    split at h
    · exact scanTemplate_followed h (' ' :: ds)
    · next hone =>
        -- the blank is no quote, so there are no three quotes in a row behind it either
        split
        · next more hmore =>
            match cs, hone, hmore with
            | [], _, hmore => simp at hmore
            | [_], _, hmore => simp at hmore
            | _ :: _ :: _, hone, hmore => simp_all
        · exact scanString_followed h (' ' :: ds)
  · rw [if_neg hq] at h ⊢
    by_cases hd : Text.isDigit c = true
    · rw [if_pos hd] at h ⊢
      cases h
      exact congrArg Except.ok (scanNumber_followed (c :: cs) ds)
    · rw [if_neg hd] at h ⊢
      by_cases hn : Text.startsName c = true
      · rw [if_pos hn] at h ⊢
        cases h
        exact congrArg Except.ok (scanWord_followed c cs ds)
      · rw [if_neg hn] at h ⊢
        exact scanSymbol_followed h ds

end Lexeme

/-! ## Gaps in front of a blank -/

/-- What stands behind a gap is not looked at. -/
theorem splitTrivia_followed {inComment : Bool} {cs : List Char}
    (h : (splitTrivia inComment cs).2 ≠ []) (ds : List Char) :
    splitTrivia inComment (cs ++ ds)
      = ((splitTrivia inComment cs).1, (splitTrivia inComment cs).2 ++ ds) := by
  induction cs generalizing inComment with
  | nil => cases inComment <;> exact absurd rfl h
  | cons c cs ih =>
      cases inComment with
      | true =>
          simp only [splitTrivia] at h
          simp only [List.cons_append, splitTrivia, ih h]
      | false =>
          rw [splitTrivia] at h ⊢
          rw [List.cons_append, splitTrivia]
          split
          · next hc =>
              rw [if_pos hc] at h
              rw [ih h]
          · rfl

/-- Behind a gap, a blank goes on with the gap. -/
theorem splitTrivia_blank {inComment : Bool} {cs : List Char}
    (h : (splitTrivia inComment cs).2 = []) : (splitTrivia inComment (cs ++ [' '])).2 = [] := by
  induction cs generalizing inComment with
  | nil => cases inComment <;> decide
  | cons c cs ih =>
      cases inComment with
      | true =>
          simp only [splitTrivia] at h
          simp only [List.cons_append, splitTrivia, ih h]
      | false =>
          rw [splitTrivia] at h
          rw [List.cons_append, splitTrivia]
          split
          · next hc =>
              rw [if_pos hc] at h
              exact ih h
          · next hc =>
              rw [if_neg hc] at h
              cases h

/-- White space is a gap. -/
theorem splitTrivia_of_blank {cs : List Char} (h : cs.all Text.isBlank = true) :
    (splitTrivia false cs).2 = [] := by
  induction cs with
  | nil => rfl
  | cons c cs ih =>
      rw [List.all_cons, Bool.and_eq_true] at h
      have hc : (c == '#') = false := by
        rw [beq_eq_false_iff_ne]
        rintro rfl
        exact absurd h.1 (by decide)
      rw [splitTrivia, if_pos (by rw [h.1, Bool.true_or]), hc]
      exact ih h.2

/-! ## Tokens -/

namespace Cursor

/-- The cursor, with a blank more at the end of the source. -/
def padded (c : Cursor) : Cursor := { c with rest := c.rest ++ [' '] }

theorem next_padded {c d : Cursor} {t : Token} (h : c.next = (.ok t, d))
    (ht : t.kind ≠ .endOfInput) : c.padded.next = (.ok t, d.padded) := by
  unfold next take at h
  split at h
  · cases h
    exact absurd rfl ht
  · next ch cs hr =>
      have hne : (splitTrivia false c.rest).2 ≠ [] := by
        rw [show (splitTrivia false c.rest).2 = ch :: cs from hr]
        simp
      have hskip : c.padded.skip = c.skip.padded := by
        unfold skip trivia padded
        rw [splitTrivia_followed hne]
        rfl
      split at h
      · next l hl =>
          cases h
          unfold next take
          rw [hskip, padded, hr]
          simp only [List.cons_append, Lexeme.scan_followed hl]
          rfl
      · cases h

theorem next_padded_finish {c d : Cursor} {t : Token} (h : c.next = (.ok t, d))
    (ht : t.kind = .endOfInput) :
    c.padded.next = (.ok (Token.endAt c.padded.skip.position), c.padded.skip) := by
  have hrest : (splitTrivia false c.rest).2 = [] := by
    unfold next take at h
    split at h
    · next hr => exact hr
    · split at h
      · next l hl =>
          cases h
          exact absurd ht (Lexeme.scan_spells hl).kind_ne_endOfInput
      · cases h
  unfold next take
  rw [show c.padded.skip.rest = [] from splitTrivia_blank hrest]

/-- A blank at the end of a source moves the end of the input and nothing else. -/
theorem drain_padded {c : Cursor} {eof : Token} {ts : List Token}
    (h : c.drain.1 = Tokens.ofList eof ts) :
    ∃ p, c.padded.drain.1 = Tokens.ofList (Token.endAt p) ts := by
  fun_induction drain c generalizing ts with
  | case1 => cases ts <;> cases h
  | case2 c t d hn ht =>
      cases ts with
      | nil =>
          cases h
          exact ⟨c.padded.skip.position, by rw [drain_finish (next_padded_finish hn ht) rfl]; rfl⟩
      | cons => cases h
  | case3 c t d hn ht _ us c'' hd ih =>
      rw [hd] at ih
      cases ts with
      | nil => cases h
      | cons u ts =>
          cases h
          obtain ⟨p, hp⟩ := ih rfl
          refine ⟨p, ?_⟩
          rw [drain_cons (next_padded hn ht) ht]
          exact congrArg (Tokens.cons t) hp

/-- The tokens from a cursor on hang on what is taken next. -/
theorem drain_congr {c c' : Cursor} (h : c.next = c'.next) : c.drain = c'.drain := by
  cases hn : c.next with
  | mk answer d =>
      have hn' : c'.next = (answer, d) := h ▸ hn
      cases answer with
      | error e => exact (drain_fault hn).trans (drain_fault hn').symm
      | ok t =>
          by_cases ht : t.kind = .endOfInput
          · exact (drain_finish hn ht).trans (drain_finish hn' ht).symm
          · exact (drain_cons hn ht).trans (drain_cons hn' ht).symm

/-- A blank at the front of a source is skipped. -/
theorem drain_blank (c : Cursor) (cs : List Char) (h : c.rest = ' ' :: cs) :
    c.drain = (c.pass [' '] cs).drain := by
  refine drain_congr ?_
  have hb : (Text.isBlank ' ' || ' ' == '#') = true := by
    decide
  have hskip : c.skip = (c.pass [' '] cs).skip := by
    unfold skip trivia
    rw [h, splitTrivia, if_pos hb]
    simp [pass, Position.after, Nat.add_assoc, Nat.add_comm]
  rw [next, next, hskip]

end Cursor

/-- In white space there are no tokens. -/
theorem tokensOf_blank (p : Position) {cs : List Char} (h : cs.all Text.isBlank = true) :
    ∃ eof, tokensOf p cs = Tokens.ofList eof [] := by
  have hrest : (Cursor.ofSource p cs).skip.rest = [] := splitTrivia_of_blank h
  have hnext : (Cursor.ofSource p cs).next
      = (.ok (Token.endAt (Cursor.ofSource p cs).skip.position), (Cursor.ofSource p cs).skip) := by
    unfold Cursor.next Cursor.take
    rw [hrest]
  exact ⟨_, congrArg Prod.fst (Cursor.drain_finish hnext rfl)⟩

/-- White space around a source is not seen where no places are. -/
theorem blind_tokensOf_padded {p q : Position} {cs : List Char} {eof : Token} {ts : List Token}
    (h : tokensOf p cs = Tokens.ofList eof ts) :
    (tokensOf q (' ' :: (cs ++ [' ']))).view .blind = (tokensOf p cs).view .blind := by
  obtain ⟨p', hp'⟩ := Cursor.drain_padded h
  have heof : eof = Token.endAt (p.after cs) := (laid_of_tokensOf p [] h).2
  have hfront : tokensOf q (' ' :: (cs ++ [' ']))
      = ((Cursor.ofSource q (' ' :: (cs ++ [' ']))).pass [' '] (cs ++ [' '])).drain.1 :=
    congrArg Prod.fst (Cursor.drain_blank _ _ rfl)
  have halike : Cursor.Alike .blind
      ((Cursor.ofSource q (' ' :: (cs ++ [' ']))).pass [' '] (cs ++ [' ']))
      (Cursor.ofSource p cs).padded := ⟨rfl, rfl⟩
  rw [hfront, halike.drain, hp', h, Tokens.view_ofList, Tokens.view_ofList, heof]
  rfl

end TypedPrompt
