/-
# `Proofs.Reading.Embedding` — an expression in a template

Any source can be put between `{{` and `}}`, and the two between three quotes.  Where
the template ends is settled by looking for three quotes, and where the body ends by
counting marks, both without looking at tokens.  So a closing mark in a string, in a
comment or made of the braces of two nested types may end the body too early.

`read_embedded_iff` says that nothing else can go wrong: a source that is read on its
own, and that does not hold three quotes, is read as the body of such a template if
and only if its marks balance, and the tree is the same.  The limits have to leave
room for one level and one template more.
-/
import Mathlib.Data.List.Basic
import TypedPrompt.Proofs.Reading.Acceptance
import TypedPrompt.Proofs.Reading.AgreeingExpressions
import TypedPrompt.Proofs.Reading.Forms
import TypedPrompt.Proofs.Reading.WrittenTrees
import TypedPrompt.Proofs.Token.Padding

namespace TypedPrompt

/-! ## A source that is a template and nothing else -/

/-- Three quotes, a text in which there are none, and three quotes again are one token. -/
theorem tokensOf_quoted (p : Position) {text : List Char}
    (h : ¬ Lexeme.tripleQuote <:+: text ++ ['"', '"']) :
    ∃ q, tokensOf p (Lexeme.tripleQuote ++ (text ++ Lexeme.tripleQuote))
      = Tokens.ofList (Token.endAt q) [⟨.template, String.ofList text, p, q⟩] := by
  have hscan : Lexeme.scan '"' ('"' :: '"' :: (text ++ Lexeme.tripleQuote))
      = .ok ⟨.template, text, Lexeme.tripleQuote ++ text ++ Lexeme.tripleQuote, []⟩ := by
    have hsplit := Lexeme.splitTemplate_of_first h []
    rw [List.append_nil] at hsplit
    rw [Lexeme.scan, if_pos rfl]
    simp only [Lexeme.scanTemplate, hsplit]
  have hfirst := Cursor.next_of_scan
    (c := Cursor.ofSource p (Lexeme.tripleQuote ++ (text ++ Lexeme.tripleQuote)))
    rfl (by decide) hscan
  refine ⟨p.after (Lexeme.tripleQuote ++ text ++ Lexeme.tripleQuote), ?_⟩
  rw [tokensOf, Cursor.drain_cons hfirst (by simp), Cursor.drain_finish rfl rfl]
  rfl

namespace Reading

open Reader Grammar

/-- A primary with nothing around it is the expression. -/
theorem asserted_leaves_alone {settings : Settings} {inner : Inner} {depth : Int} {eof : EndToken}
    {ts : List Token} {e : Expr} (hts : nextKind ts ≠ .endOfInput)
    (h : Leaves eof (primary settings inner depth) ts [] (· = e)) :
    Leaves eof (asserted settings inner depth) ts [] (· = e) := by
  have happlication : Leaves eof (application settings inner depth) ts [] (· = e) := by
    refine Leaves.bind h ?_
    rintro _ rfl
    refine Leaves.bind (repeated_stops rfl) ?_
    rintro _ rfl
    exact Leaves.pure rfl
  have hlength : 0 < ts.length := by
    cases ts with
    | nil => exact absurd rfl hts
    | cons t ts => simp
  have hitem : ∀ (before : List Expr) (us : List Token), before = [] ∧ us = ts →
      ∃ vs, vs.length < us.length ∧ Leaves eof (application settings inner depth) (us ++ [])
        (vs ++ []) fun a => before ++ [a] = [e] ∧ vs = [] := by
    rintro _ _ ⟨rfl, rfl⟩
    refine ⟨[], hlength, ?_⟩
    rw [List.append_nil]
    refine happlication.mono ?_
    rintro _ rfl
    exact ⟨rfl, rfl⟩
  have hpipeline : Leaves eof (pipeline settings inner depth) ts [] (· = e) := by
    have hend : nextKind [] ≠ .symbol .pipe := by
      simp
    obtain ⟨us, -, -, es, hes, rfl, rfl⟩ := separated_leaves
      (T := fun es us => es = [e] ∧ us = []) hitem (by simp) hend ⟨rfl, rfl⟩ hts
    rw [List.append_nil] at hes
    refine Leaves.bind ⟨[e], hes, rfl⟩ ?_
    rintro _ rfl
    exact Leaves.pure rfl
  refine Leaves.bind hpipeline ?_
  rintro _ rfl
  exact Leaves.accept_ite_no (by simp) (Leaves.pure rfl)

/-- Where a template is all there is, the tree is that template. -/
theorem complete_template {settings : Settings} {inner : Inner} {depth : Int} {eof t : Token}
    {parts : List (Part Expr)} (heof : eof.kind = .endOfInput) (ht : t.kind = .template)
    (hm : Piece.openMark <:+: t.text.toList)
    (hparts : (Piece.pieces (textStart t) t.text.toList).mapM (part settings inner depth t)
      = .ok parts) :
    complete (asserted settings inner depth) .endOfInput (Tokens.ofList eof [t])
      = .ok (.template (place settings t) parts) := by
  have hprimary : Leaves ⟨eof, heof⟩ (primary settings inner depth) [t] []
      (· = .template (place settings t) parts) := by
    refine Leaves.peek_bind ?_
    rw [ht]
    exact textLiteral_leaves_parts hm hparts
  obtain ⟨_, hread, rfl⟩ :=
    complete_of_leaves .endOfInput (asserted_leaves_alone (by simp [ht]) hprimary)
  exact hread

end Reading

/-! ## Embedding a source -/

/-- The text of a template that has nothing in it but a body, with a blank on each side. -/
def soleBody (cs : List Char) : List Char :=
  Piece.openMark ++ (' ' :: (cs ++ [' ']) ++ (Piece.closeMark ++ []))

/-- A source between marks, in a template. -/
def embedded (source : String) : String := "\"\"\"\x7b\x7b " ++ source ++ " \x7d\x7d\"\"\""

theorem toList_embedded (source : String) :
    (embedded source).toList
      = Lexeme.tripleQuote ++ (soleBody source.toList ++ Lexeme.tripleQuote) := by
  simp [embedded, soleBody, Lexeme.tripleQuote, Piece.openMark, Piece.closeMark]

/-- The text goes as far as it should. -/
theorem quotes_soleBody {cs : List Char} (h : ¬ Lexeme.tripleQuote <:+: cs) :
    ¬ Lexeme.tripleQuote <:+: soleBody cs ++ ['"', '"'] := by
  have hc : ' ' ∉ Lexeme.tripleQuote := by
    decide
  have heq : soleBody cs ++ ['"', '"']
      = Piece.openMark ++ ' ' :: (cs ++ ' ' :: (Piece.closeMark ++ ['"', '"'])) := by
    simp [soleBody]
  rw [heq]
  intro hmarks
  rcases infix_append_cons hc hmarks with hopen | hbehind
  · exact absurd hopen (by decide)
  · rcases infix_append_cons hc hbehind with hinside | hclose
    · exact h hinside
    · exact absurd hclose (by decide)

/-- Nothing but a body is between the marks around all of a text. -/
theorem Piece.Split.sole_body {p start : Position} {cs inside : List Char}
    (h : Split p cs [.body start inside]) :
    Balanced inside ∧ cs = openMark ++ (inside ++ (closeMark ++ [])) := by
  cases h with
  | body hb h =>
      cases h
      exact ⟨hb, rfl⟩

theorem tokensOf_embedded {source : String} (h : ¬ Lexeme.tripleQuote <:+: source.toList) :
    ∃ q, tokensOf Position.start (embedded source).toList = Tokens.ofList (Token.endAt q)
      [⟨.template, String.ofList (soleBody source.toList), Position.start, q⟩] := by
  rw [toList_embedded]
  exact tokensOf_quoted Position.start (quotes_soleBody h)

namespace Expr

open Grammar Reading

/-- If the template is read as one body, the marks in that body balance. -/
theorem balanced_of_derivation {file : String} {t : Token} {cs : List Char} {loc : Location}
    {e : Expr} (h : Expression file [t] (.template loc [.embed e]))
    (ht : t.text.toList = soleBody cs) : Piece.Balanced (' ' :: (cs ++ [' '])) := by
  obtain ⟨u, hu, hs⟩ := h.template_single
  obtain rfl := List.mem_singleton.mp hu
  cases hs with
  | template _ _ hsplit hparts =>
      rw [ht] at hsplit
      obtain ⟨piece, pieces, hpiece, hnone, rfl⟩ := List.forall₂_cons_right_iff.mp hparts
      obtain rfl := List.forall₂_nil_right_iff.mp hnone
      cases hpiece with
      | body _ _ _ =>
          obtain ⟨hbalanced, htext⟩ := hsplit.sole_body
          obtain rfl := List.append_cancel_right (List.append_cancel_left htext)
          exact hbalanced

/-- What is read alone is read with blanks around it. -/
theorem read_padded {settings settings' : Settings} {source : String} {e : Expr}
    (h : read settings Context.top source = .ok e) (hfile : settings.file = settings'.file)
    (levels : Nat) (hlevels : settings.maxNesting.toNat ≤ levels) (depth : Int)
    (hdepth : settings.maxDepth ≤ settings'.maxDepth - depth) (p : Position) :
    ∃ e', complete (expressionWithin settings' levels depth) .endOfInput
        (tokensOf p (' ' :: (source.toList ++ [' ']))) = .ok e' ∧ e.same e' = true := by
  obtain ⟨eof, ts, hts, he⟩ := exists_derivation_of_read h
  have hview := (blind_tokensOf_padded (q := p) hts).symm
  have hreaders : Reader.Agrees .blind (SameTree .blind)
      (expressionWithin settings (settings.maxNesting - 0).toNat 0)
      (expressionWithin settings' levels depth) :=
    expressionWithin_agrees (congrArg _ hfile) (by simpa using hlevels) (by simpa using hdepth)
  have hagree := complete_agrees hreaders .endOfInput hview
  have hread : complete (expressionWithin settings (settings.maxNesting - 0).toNat 0) .endOfInput
      (tokensOf Context.top.start source.toList) = .ok e := h
  rw [hread] at hagree
  obtain ⟨e', he', hsame⟩ := hagree.exists_ok
  exact ⟨e', he', same_of_view_eq hsame he.same_self⟩

/-- There is a token in what is read. -/
theorem not_blank_of_read {settings : Settings} {source : String} {e : Expr}
    (h : read settings Context.top source = .ok e) : ¬ source.toList.all Text.isBlank = true := by
  obtain ⟨eof, ts, hts, he⟩ := exists_derivation_of_read h
  intro hblank
  obtain ⟨eof', hnone⟩ := tokensOf_blank Context.top.start hblank
  rw [hts] at hnone
  obtain ⟨t, us, hne⟩ := start_ne_nil he.start_nil
  rw [Tokens.ofList_injective hnone] at hne
  cases hne

/-- There is a level for what is read. -/
theorem nesting_pos_of_read {settings : Settings} {source : String} {e : Expr}
    (h : read settings Context.top source = .ok e) : 0 < settings.maxNesting := by
  by_contra hn
  have hlevels : (settings.maxNesting - Context.top.nesting).toNat = 0 := by
    simp only [Context.top]
    omega
  unfold read at h
  rw [hlevels] at h
  cases hi : Input.ofTokens (tokensOf Context.top.start source.toList) with
  | error f => simp [complete, hi, Bind.bind, Except.bind] at h
  | ok i =>
      simp [complete, hi, Bind.bind, Except.bind, expressionWithin, StateT.bind, Reader.peek,
        Reader.failAt] at h

/-- If the marks balance, the template is read as one body. -/
theorem read_embedded_of_balanced {settings settings' : Settings} {source : String} {e : Expr}
    (h : read settings Context.top source = .ok e)
    (hquotes : ¬ Lexeme.tripleQuote <:+: source.toList) (hfile : settings.file = settings'.file)
    (hdepth : settings.maxDepth < settings'.maxDepth) (hroom : 0 < settings'.maxDepth)
    (hnesting : settings.maxNesting < settings'.maxNesting)
    (hbalanced : Piece.Balanced (' ' :: (source.toList ++ [' ']))) :
    ∃ e', read settings' Context.top (embedded source)
        = .ok (.template ⟨Position.start, settings'.file⟩ [.embed e']) ∧ e.same e' = true := by
  obtain ⟨q, hq⟩ := tokensOf_embedded hquotes
  generalize ht :
    (⟨.template, String.ofList (soleBody source.toList), Position.start, q⟩ : Token) = t at hq
  have htext : t.text.toList = soleBody source.toList := by
    rw [← ht, String.toList_ofList]
  -- one level goes to the template itself
  have hpositive := nesting_pos_of_read h
  obtain ⟨levels, hlevels⟩ : ∃ levels, settings'.maxNesting.toNat = levels + 1 :=
    Nat.exists_eq_succ_of_ne_zero (by omega)
  obtain ⟨e', he', hsame⟩ := read_padded h hfile levels (by omega) (0 + 1) (by omega)
    ((textStart t).after Piece.openMark)
  have hpart : part settings' (.within settings' levels 0) 0 t
      (.body ((textStart t).after Piece.openMark) (' ' :: (source.toList ++ [' '])))
        = .ok (.embed e') := by
    rw [part, if_neg (by simp [not_blank_of_read h]), if_neg (by omega)]
    exact congrArg (Except.map Part.embed) he'
  have hparts : (Piece.pieces (textStart t) t.text.toList).mapM
      (part settings' (.within settings' levels 0) 0 t) = .ok [.embed e'] := by
    rw [htext, soleBody, Piece.pieces_body hbalanced, Piece.pieces]
    simp only [List.mapM_cons, hpart]
    rfl
  have hread := complete_template (kind_eof_of_tokensOf hq) (by rw [← ht])
    (htext ▸ ⟨[], _, rfl⟩) hparts
  refine ⟨e', ?_, hsame⟩
  rw [read, Context.top, Int.sub_zero, hlevels, hq]
  rw [← ht] at hread ⊢
  exact hread

/-- A source that is read on its own, and that does not hold three quotes, is read as
the body of a template if and only if its marks balance. -/
theorem read_embedded_iff {settings settings' : Settings} {source : String} {e : Expr}
    (h : read settings Context.top source = .ok e)
    (hquotes : ¬ Lexeme.tripleQuote <:+: source.toList) (hfile : settings.file = settings'.file)
    (hdepth : settings.maxDepth < settings'.maxDepth) (hroom : 0 < settings'.maxDepth)
    (hnesting : settings.maxNesting < settings'.maxNesting) :
    Piece.Balanced (' ' :: (source.toList ++ [' ']))
      ↔ ∃ e', read settings' Context.top (embedded source)
          = .ok (.template ⟨Position.start, settings'.file⟩ [.embed e']) ∧ e.same e' = true := by
  refine ⟨read_embedded_of_balanced h hquotes hfile hdepth hroom hnesting, ?_⟩
  rintro ⟨e', he', -⟩
  obtain ⟨q, hq⟩ := tokensOf_embedded hquotes
  exact balanced_of_derivation (derivation_of_read hq he') String.toList_ofList

/-- A template in the template; its marks balance. -/
theorem read_embedded_iff_template :
    let source := "\"\x7b\x7bx\x7d\x7d\""
    ∃ e e', read ⟨"main", 1, 2⟩ Context.top source = .ok e
      ∧ read ⟨"main", 2, 3⟩ Context.top (embedded source)
          = .ok (.template ⟨Position.start, "main"⟩ [.embed e'])
      ∧ e.same e' = true := by
  intro source
  have h : read ⟨"main", 1, 2⟩ Context.top source
      = .ok (.template ⟨⟨1, 1⟩, "main"⟩ [.embed (.identifier ⟨⟨1, 4⟩, "main"⟩ "x")]) := by
    cbv
  have hchars : source.toList = ['"', '{', '{', 'x', '}', '}', '"'] := by
    cbv
  have hquotes : ¬ Lexeme.tripleQuote <:+: source.toList := by
    rw [hchars]
    decide
  have hsplit : Piece.splitBody 0 ([' ', '"', '{', '{', 'x', '}', '}', '"', ' '] ++ ['}', '}'])
      = some ([' ', '"', '{', '{', 'x', '}', '}', '"', ' '], []) := by
    decide
  have hbalanced : Piece.Balanced (' ' :: (source.toList ++ [' '])) := by
    rw [hchars]
    exact (Piece.splitBody_eq_some_iff.mp hsplit).2
  have hiff : Piece.Balanced (' ' :: (source.toList ++ [' '])) ↔ ∃ e',
      read ⟨"main", 2, 3⟩ Context.top (embedded source)
        = .ok (.template ⟨Position.start, "main"⟩ [.embed e']) ∧ Expr.same _ e' = true :=
    read_embedded_iff h hquotes rfl (by decide) (by decide) (by decide)
  obtain ⟨e', he', hsame⟩ := hiff.mp hbalanced
  exact ⟨_, e', h, he', hsame⟩

/-- A closing mark in a string ends the body, whatever the limits are. -/
theorem read_embedded_cut :
    let source := "\"\x7d\x7d\""
    read ⟨"main", 16, 64⟩ Context.top source = .ok (.literal ⟨⟨1, 1⟩, "main"⟩ (.str "\x7d\x7d"))
      ∧ ¬ Lexeme.tripleQuote <:+: source.toList
      ∧ ∀ settings loc e, read settings Context.top (embedded source)
          ≠ .ok (.template loc [.embed e]) := by
  intro source
  have hchars : source.toList = ['"', '}', '}', '"'] := by
    cbv
  have hquotes : ¬ Lexeme.tripleQuote <:+: source.toList := by
    rw [hchars]
    decide
  refine ⟨by cbv, hquotes, fun settings loc e he => ?_⟩
  obtain ⟨q, hq⟩ := tokensOf_embedded hquotes
  have hbalanced := balanced_of_derivation (derivation_of_read hq he) String.toList_ofList
  rw [hchars] at hbalanced
  have hsplit : Piece.splitBody 0 ([' ', '"', '}', '}', '"', ' '] ++ (['}', '}'] ++ []))
      = some ([' ', '"', '}', '}', '"', ' '], []) :=
    Piece.splitBody_eq_some_iff.mpr ⟨rfl, hbalanced⟩
  exact absurd hsplit (by decide)

end Expr

end TypedPrompt
