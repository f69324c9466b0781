/-
# `Proofs.Token.Layout` — a source is its tokens and the gaps between them

A source that can be cut into tokens is a concatenation `g₀ l₁ g₁ … lₙ gₙ`.  The
gaps `gᵢ` are white space and comments; the lexemes `lᵢ` are what the tokens are
written as.  This file says what a gap is (`Gap`), which kind and text a lexeme
denotes (`Spells`), and what it means for a source to be laid out as tokens
(`Laid`), without saying how any of it is found.  `tokensOf_laid` shows that the
tokens of a source are such a layout, so that nothing is lost and no place is off.

Places are counted from the beginning of the source.  The induction is on the
cursor, with all that is behind it, `before`, as a parameter.
-/
import Mathlib.Data.List.Permutation
import TypedPrompt.Proofs.Reading.Tokens
import TypedPrompt.Proofs.Source.Places

namespace TypedPrompt

/-! ## Between tokens -/

/-- White space and comments in front of `rest`.  A comment goes on to the end of
its line, or of the source. -/
inductive Gap (rest : List Char) : List Char → Prop
  | nil : Gap rest []
  | blank {c : Char} {cs : List Char} : Text.isBlank c = true → Gap rest cs → Gap rest (c :: cs)
  | comment {text cs : List Char} :
      '\n' ∉ text → (∀ c ∈ (cs ++ rest).head?, c = '\n') → Gap rest cs →
      Gap rest ('#' :: (text ++ cs))

/-- What `splitTrivia` takes in a comment: the comment, and a gap behind it. -/
def Commented (rest taken : List Char) : Prop :=
  ∃ text cs, taken = text ++ cs ∧ '\n' ∉ text ∧ (∀ c ∈ (cs ++ rest).head?, c = '\n') ∧ Gap rest cs

theorem splitTrivia_gap (cs : List Char) :
    Gap (splitTrivia false cs).2 (splitTrivia false cs).1
      ∧ Commented (splitTrivia true cs).2 (splitTrivia true cs).1 := by
  induction cs with
  | nil => exact ⟨.nil, [], [], rfl, by simp, by simp [splitTrivia], .nil⟩
  | cons c cs ih =>
      obtain ⟨hgap, text, more, htaken, hline, hend, hmore⟩ := ih
      constructor
      · by_cases hc : c = '#'
        · subst hc
          simp only [splitTrivia, beq_self_eq_true, Bool.or_true, if_true]
          rw [htaken]
          exact .comment hline hend hmore
        · have hc : (c == '#') = false := beq_false_of_ne hc
          by_cases hb : Text.isBlank c = true
          · simpa only [splitTrivia, hb, hc, Bool.true_or, if_true] using .blank hb hgap
          · simpa only [splitTrivia, hb, hc, Bool.or_false, if_false] using .nil
      · by_cases hc : c = '\n'
        · subst hc
          have hb : Text.isBlank '\n' = true := by
            decide
          refine ⟨[], '\n' :: (splitTrivia false cs).1, ?_, by simp, by simp, ?_⟩
          · simp [splitTrivia]
          · simpa [splitTrivia] using .blank hb hgap
        · have hb : (c != '\n') = true := bne_iff_ne.mpr hc
          refine ⟨c :: text, more, ?_, by simp [Ne.symm hc, hline], ?_, ?_⟩
          · simp [splitTrivia, hb, htaken]
          · simpa only [splitTrivia, hb] using hend
          · simpa only [splitTrivia, hb] using hmore

/-- What stands in front of a token is a gap. -/
theorem trivia_gap (cs : List Char) : Gap (trivia cs).2 (trivia cs).1 :=
  (splitTrivia_gap cs).1

/-! ## What a lexeme denotes -/

/-- What stands between the quotes of a string literal, and the text it denotes. -/
inductive Escaped : List Char → List Char → Prop
  | nil : Escaped [] []
  | plain {c : Char} {written text : List Char} :
      c ≠ '"' → c ≠ '\\' → Escaped written text → Escaped (c :: written) (c :: text)
  | escape {c : Char} {written text : List Char} :
      Escaped written text → Escaped ('\\' :: c :: written) (Lexeme.unescape c :: text)

/-- A word that is neither reserved nor a truth value. -/
def IsFreeWord (word : String) : Prop :=
  (∀ k : Keyword, k.word ≠ word) ∧ word ≠ "true" ∧ word ≠ "false"

/-- The digits of a number token, at least one. -/
def IsDigits (ds : List Char) : Prop := ds ≠ [] ∧ ∀ d ∈ ds, Text.isDigit d = true

/-- A lexeme with the kind and the text that it denotes. -/
inductive Spells : List Char → Kind → List Char → Prop
  | symbol (s : Symbol) : Spells s.spelling (.symbol s) s.spelling
  | keyword (k : Keyword) : Spells k.word.toList (.keyword k) k.word.toList
  | boolean {word : String} :
      word = "true" ∨ word = "false" → Spells word.toList .boolean word.toList
  | name {c : Char} {cs : List Char} :
      Text.startsName c = true → (∀ d ∈ cs, Text.continuesName d = true) →
      IsFreeWord (String.ofList (c :: cs)) → Spells (c :: cs) .name (c :: cs)
  | integer {ds : List Char} : IsDigits ds → Spells ds .number ds
  | decimal {ds fs : List Char} :
      IsDigits ds → IsDigits fs → Spells (ds ++ '.' :: fs) .number (ds ++ '.' :: fs)
  | string {written text : List Char} :
      Escaped written text → Spells ('"' :: (written ++ ['"'])) .string text
  | template {text : List Char} :
      ¬ Lexeme.tripleQuote <:+: text ++ ['"', '"'] →
      Spells (Lexeme.tripleQuote ++ (text ++ Lexeme.tripleQuote)) .template text

theorem Spells.kind_ne_endOfInput {lexeme text : List Char} {kind : Kind}
    (h : Spells lexeme kind text) : kind ≠ .endOfInput := by
  cases h <;> simp

namespace Lexeme

theorem splitString_escaped {cs text raw rest : List Char}
    (h : splitString cs = some (text, raw, rest)) :
    ∃ written, raw = written ++ ['"'] ∧ Escaped written text := by
  fun_induction splitString cs generalizing text raw rest with
  | case1 => simp at h
  | case2 =>
      simp only [Option.some.injEq, Prod.mk.injEq] at h
      obtain ⟨rfl, rfl, -⟩ := h
      exact ⟨[], rfl, .nil⟩
  | case3 c cs ih =>
      obtain ⟨⟨t, r, r'⟩, hs, he⟩ := Option.map_eq_some_iff.1 h
      simp only [Prod.mk.injEq] at he
      obtain ⟨rfl, rfl, -⟩ := he
      obtain ⟨written, rfl, hw⟩ := ih hs
      exact ⟨_, rfl, .escape hw⟩
  | case4 => simp at h
  | case5 c cs hquote hescape hlone ih =>
      obtain ⟨⟨t, r, r'⟩, hs, he⟩ := Option.map_eq_some_iff.1 h
      simp only [Prod.mk.injEq] at he
      obtain ⟨rfl, rfl, -⟩ := he
      obtain ⟨written, rfl, hw⟩ := ih hs
      refine ⟨_, rfl, .plain ?_ ?_ hw⟩
      · exact fun hc => hquote hc
      · rintro rfl
        cases cs with
        | nil => exact hlone rfl rfl
        | cons d ds => exact hescape d ds rfl rfl

/-- What stands between quotes is split off up to the second of them. -/
theorem splitString_of_escaped {written text : List Char} (h : Escaped written text)
    (rest : List Char) :
    splitString (written ++ '"' :: rest) = some (text, written ++ ['"'], rest) := by
  induction h with
  | nil => rfl
  | @plain c written text hquote hescape _ ih =>
      rw [List.cons_append, splitString.eq_5, ih]
      · rfl
      · exact fun hc => hquote hc
      · exact fun _ _ hc => absurd hc hescape
      · exact fun hc => absurd hc hescape
  | @escape c written text _ ih =>
      rw [List.cons_append, List.cons_append, splitString, ih]
      rfl

/-- A template ends at the first three quotes in a row. -/
theorem splitTemplate_first {cs text rest : List Char}
    (h : splitTemplate cs = some (text, rest)) : ¬ tripleQuote <:+: text ++ ['"', '"'] := by
  fun_induction splitTemplate cs generalizing text rest with
  | case1 => simp at h
  | case2 =>
      simp only [Option.some.injEq, Prod.mk.injEq] at h
      rw [← h.1]
      decide
  | case3 c cs hclose ih =>
      obtain ⟨⟨t, r⟩, hs, he⟩ := Option.map_eq_some_iff.1 h
      simp only [Prod.mk.injEq] at he
      obtain ⟨rfl, rfl⟩ := he
      rw [List.cons_append, List.infix_cons_iff]
      rintro (hfront | hlater)
      · -- three quotes at the front of the text would be at the front of `c :: cs`
        have hcs : c :: (t ++ ['"', '"']) <+: c :: cs := by
          rw [← splitTemplate_append hs]
          exact ⟨'"' :: r, by simp [tripleQuote]⟩
        obtain ⟨ds, hds⟩ := hfront.trans hcs
        simp only [tripleQuote, List.cons_append, List.nil_append, List.cons.injEq] at hds
        exact hclose ds hds.1.symm hds.2.symm
      · exact ih hs hlater

/-- A text that goes up to the first three quotes in a row is split off. -/
theorem splitTemplate_of_first {text : List Char} (h : ¬ tripleQuote <:+: text ++ ['"', '"'])
    (rest : List Char) : splitTemplate (text ++ (tripleQuote ++ rest)) = some (text, rest) := by
  induction text with
  | nil => rfl
  | cons c text ih =>
      rw [List.cons_append, List.infix_cons_iff, not_or] at h
      rw [List.cons_append, splitTemplate.eq_3, ih h.2]
      · rfl
      · -- three quotes at the front would already stand in `text` with two quotes behind it
        rintro more rfl hmore
        have hlong : tripleQuote <+: '"' :: (text ++ (tripleQuote ++ rest)) := by
          rw [hmore]
          exact ⟨more, rfl⟩
        have hshort : '"' :: (text ++ ['"', '"']) <+: '"' :: (text ++ (tripleQuote ++ rest)) :=
          ⟨'"' :: rest, by simp [tripleQuote]⟩
        exact h.1 (List.prefix_of_prefix_length_le hlong hshort (by simp [tripleQuote]))

theorem scanNumber_spells {c : Char} (cs : List Char) (hc : Text.isDigit c = true) :
    Spells (scanNumber (c :: cs)).raw .number (scanNumber (c :: cs)).text := by
  have hwhole : IsDigits (Numeral.spanDigits (c :: cs)).1 :=
    ⟨by simp [Numeral.spanDigits, hc], Numeral.spanDigits_all (c :: cs)⟩
  unfold scanNumber
  split
  next whole afterWhole hs =>
    rw [hs] at hwhole
    split
    · next fraction rest hf => exact .decimal hwhole (Numeral.scanFraction_some hf)
    · exact .integer hwhole

theorem ofWord?_eq_some {word : String} {k : Keyword} (h : Keyword.ofWord? word = some k) :
    k.word = word := by
  simpa using List.find?_some h

theorem ofWord?_eq_none {word : String} (h : Keyword.ofWord? word = none) (k : Keyword) :
    k.word ≠ word := by
  have hk : k ∈ Keyword.all := by
    cases k <;> decide
  simpa using List.find?_eq_none.mp h k hk

theorem scanWord_spells {c : Char} (cs : List Char) (hc : Text.startsName c = true) :
    Spells (scanWord c cs).raw (scanWord c cs).kind (scanWord c cs).text := by
  have hcs : ∀ d ∈ cs.takeWhile Text.continuesName, Text.continuesName d = true :=
    List.all_eq_true.mp List.all_takeWhile
  unfold scanWord wordKind
  generalize cs.takeWhile Text.continuesName = ds at *
  have hword : (String.ofList (c :: ds)).toList = c :: ds := by
    simp
  simp only
  split
  · next k hk =>
      have h := ofWord?_eq_some hk
      rw [← hword, ← h]
      exact .keyword k
  · next hnone =>
      split
      · next htruth =>
          rw [← hword]
          exact .boolean (by simpa using htruth)
      · next hfree =>
          simp only [Bool.or_eq_true, beq_iff_eq, not_or] at hfree
          exact .name hc hcs ⟨ofWord?_eq_none hnone, hfree.1, hfree.2⟩

theorem spelling_ofPair? {c d : Char} {s : Symbol} (h : Symbol.ofPair? c d = some s) :
    s.spelling = [c, d] := by
  unfold Symbol.ofPair? at h
  split at h <;> simp at h <;> subst h <;> rfl

theorem spelling_ofChar? {c : Char} {s : Symbol} (h : Symbol.ofChar? c = some s) :
    s.spelling = [c] := by
  unfold Symbol.ofChar? at h
  split at h <;> simp at h <;> subst h <;> rfl

theorem scanSymbol_spells {c : Char} {cs : List Char} {l : Lexeme} (h : scanSymbol c cs = .ok l) :
    Spells l.raw l.kind l.text := by
  have hpair : ∀ {d : Char} {s : Symbol}, Symbol.ofPair? c d = some s →
      Spells [c, d] (.symbol s) [c, d] := by
    intro d s hs
    rw [← spelling_ofPair? hs]
    exact .symbol s
  have hsingle : ∀ {s : Symbol}, Symbol.ofChar? c = some s → Spells [c] (.symbol s) [c] := by
    intro s hs
    rw [← spelling_ofChar? hs]
    exact .symbol s
  unfold scanSymbol at h
  cases hc : Symbol.ofChar? c <;> cases cs with
  | nil => simp [hc] at h <;> simp [← h, hsingle hc]
  | cons d rest =>
      cases hp : Symbol.ofPair? c d <;> simp [hc, hp] at h <;> simp [← h, hpair, hsingle, hp, hc]

/-- A lexeme that is scanned denotes the kind and the text that are found. -/
theorem scan_spells {c : Char} {cs : List Char} {l : Lexeme} (h : scan c cs = .ok l) :
    Spells l.raw l.kind l.text := by
  unfold scan at h
  split at h
  · split at h
    · next cs' =>
        unfold scanTemplate at h
        split at h <;> cases h
        next hs => simpa using Spells.template (splitTemplate_first hs)
    · unfold scanString at h
      split at h <;> cases h
      next hs =>
        obtain ⟨written, rfl, hw⟩ := splitString_escaped hs
        exact .string hw
  · split at h
    · next hd =>
        cases h
        have hk := scanNumber_kind (c :: cs)
        rw [hk]
        exact scanNumber_spells cs hd
    · split at h
      · next hn =>
          cases h
          exact scanWord_spells cs hn
      · exact scanSymbol_spells h

end Lexeme

/-! ## Layouts -/

/-- A source that begins at `p`, of which `before` is behind us, goes on with gaps and
the lexemes of some tokens, and ends with a gap.  Each token has the places where its
lexeme begins and ends, counted from the beginning of the source. -/
inductive Laid (p : Position) : List Char → List Char → List Token → Prop
  | done {before gap : List Char} : Gap [] gap → Laid p before gap []
  | token {before gap lexeme rest : List Char} {t : Token} {ts : List Token} :
      Gap (lexeme ++ rest) gap → lexeme ≠ [] →
      t.start = p.counted (before ++ gap) → t.stop = p.counted (before ++ gap ++ lexeme) →
      Spells lexeme t.kind t.text.toList → Laid p (before ++ gap ++ lexeme) rest ts →
      Laid p before (gap ++ (lexeme ++ rest)) (t :: ts)

/-- A token of a layout stands where its lexeme is. -/
theorem Laid.mem {p : Position} {before cs : List Char} {ts : List Token} {t : Token}
    (h : Laid p before cs ts) (ht : t ∈ ts) :
    ∃ front lexeme rest, before ++ cs = front ++ (lexeme ++ rest) ∧ t.start = p.counted front
      ∧ t.stop = p.counted (front ++ lexeme) ∧ Spells lexeme t.kind t.text.toList := by
  induction h with
  | done => exact absurd ht List.not_mem_nil
  | @token before gap lexeme rest u us _ _ hstart hstop hs _ ih =>
      rcases List.mem_cons.mp ht with rfl | ht
      · exact ⟨before ++ gap, lexeme, rest, by simp, hstart, hstop, hs⟩
      · obtain ⟨front, lexeme', rest', heq, h⟩ := ih ht
        exact ⟨front, lexeme', rest', by rw [← heq]; simp, h⟩

namespace Cursor

/-- The next token, if it is not the end: a gap, its lexeme, and the cursor behind it. -/
theorem next_laid {c c' : Cursor} {t : Token} (h : c.next = (.ok t, c'))
    (ht : t.kind ≠ .endOfInput) :
    ∃ gap lexeme, c.rest = gap ++ (lexeme ++ c'.rest) ∧ Gap (lexeme ++ c'.rest) gap ∧ lexeme ≠ []
      ∧ t.start = c.position.after gap ∧ t.stop = c'.position
      ∧ c'.position = (c.position.after gap).after lexeme
      ∧ Spells lexeme t.kind t.text.toList := by
  have hgap := trivia_gap c.rest
  have happend := trivia_append c.rest
  unfold next take at h
  split at h
  · cases h
    exact absurd rfl ht
  · next ch cs hr =>
      split at h
      · next l hl =>
          cases h
          have hrest : (trivia c.rest).2 = l.raw ++ l.rest := by
            rw [Lexeme.scan_append hl, ← hr]
            rfl
          rw [hrest] at hgap happend
          exact ⟨(trivia c.rest).1, l.raw, happend.symm, hgap, Lexeme.scan_raw_ne_nil hl, rfl, rfl,
            rfl, by simpa using Lexeme.scan_spells hl⟩
      · cases h

/-- The end of the input: a gap up to it. -/
theorem next_finish {c c' : Cursor} {t : Token} (h : c.next = (.ok t, c'))
    (ht : t.kind = .endOfInput) : Gap [] c.rest ∧ t = Token.endAt (c.position.after c.rest) := by
  have hgap := trivia_gap c.rest
  have happend := trivia_append c.rest
  unfold next take at h
  split at h
  · next hr =>
      cases h
      have hrest : (trivia c.rest).2 = [] := hr
      rw [hrest, List.append_nil] at happend
      rw [hrest, happend] at hgap
      refine ⟨hgap, ?_⟩
      show Token.endAt (c.position.after (trivia c.rest).1) = _
      rw [happend]
  · split at h
    · next l hl =>
        cases h
        exact absurd ht (Lexeme.scan_spells hl).kind_ne_endOfInput
    · cases h

theorem drain_laid {p : Position} {before : List Char} {c : Cursor} {eof : Token} {ts : List Token}
    (hc : c.position = p.after before) (h : c.drain.1 = Tokens.ofList eof ts) :
    Laid p before c.rest ts ∧ eof = Token.endAt (p.after (before ++ c.rest)) := by
  fun_induction drain c generalizing ts before with
  | case1 => cases ts <;> cases h
  | case2 c t c' hn ht =>
      cases ts with
      | nil =>
          cases h
          obtain ⟨hgap, heof⟩ := next_finish hn ht
          rw [heof, hc, Position.after_append]
          exact ⟨.done hgap, rfl⟩
      | cons => cases h
  | case3 c t c' hn ht _ us c'' hd ih =>
      rw [hd] at ih
      cases ts with
      | nil => cases h
      | cons u ts =>
          cases h
          obtain ⟨gap, lexeme, hrest, hgap, hne, hstart, hstop, hbehind, hs⟩ := next_laid hn ht
          have hfront : p.after (before ++ gap) = c.position.after gap := by
            rw [hc, Position.after_append]
          have hc' : c'.position = p.after (before ++ gap ++ lexeme) := by
            rw [hbehind, ← hfront, ← Position.after_append]
          obtain ⟨hlaid, heof⟩ := ih hc' rfl
          rw [hrest]
          refine ⟨.token hgap hne ?_ ?_ hs hlaid, ?_⟩
          · rw [hstart, ← hfront, Position.after_eq_counted]
          · rw [hstop, hc', Position.after_eq_counted]
          · rw [heof]
            simp

end Cursor

/-- A piece of a source that can be cut into tokens is laid out as them, where it stands. -/
theorem laid_of_tokensOf (p : Position) (before : List Char) {cs : List Char} {eof : Token}
    {ts : List Token} (h : tokensOf (p.after before) cs = Tokens.ofList eof ts) :
    Laid p before cs ts ∧ eof = Token.endAt (p.after (before ++ cs)) :=
  Cursor.drain_laid rfl h

/-- A source that can be cut into tokens is laid out as them, and the end of the input
stands behind all of it. -/
theorem tokensOf_laid {p : Position} {cs : List Char} {eof : Token} {ts : List Token}
    (h : tokensOf p cs = Tokens.ofList eof ts) :
    Laid p [] cs ts ∧ eof = Token.endAt (p.counted cs) := by
  rw [← Position.after_eq_counted]
  exact laid_of_tokensOf p [] h

/-- A comment, an operator on the next line, and a string with an escape in it. -/
theorem tokensOf_laid_lines :
    ∃ ts : List Token, tokensOf ⟨3, 5⟩ "x # f\n |> \"\\n\"".toList
        = Tokens.ofList ⟨.endOfInput, "", ⟨4, 9⟩, ⟨4, 9⟩⟩ ts
      ∧ ts = [⟨.name, "x", ⟨3, 5⟩, ⟨3, 6⟩⟩, ⟨.symbol .pipe, "|>", ⟨4, 2⟩, ⟨4, 4⟩⟩,
          ⟨.string, "\n", ⟨4, 5⟩, ⟨4, 9⟩⟩]
      ∧ Laid ⟨3, 5⟩ [] "x # f\n |> \"\\n\"".toList ts := by
  have hts : tokensOf ⟨3, 5⟩ "x # f\n |> \"\\n\"".toList
      = Tokens.ofList ⟨.endOfInput, "", ⟨4, 9⟩, ⟨4, 9⟩⟩
          [⟨.name, "x", ⟨3, 5⟩, ⟨3, 6⟩⟩, ⟨.symbol .pipe, "|>", ⟨4, 2⟩, ⟨4, 4⟩⟩,
           ⟨.string, "\n", ⟨4, 5⟩, ⟨4, 9⟩⟩] := by
    cbv
  exact ⟨_, hts, rfl, (tokensOf_laid hts).1⟩

end TypedPrompt
