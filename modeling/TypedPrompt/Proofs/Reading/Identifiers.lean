/-
# `Proofs.Reading.Identifiers` — identifiers stand where they say they do

Every node knows the place of its first token.  For an identifier inside a template
that place was found by counting over the text of a literal, and then over the
bodies in it, template by template, so that two things have to agree at every step:
the text that was counted, and the source.

They agree in a literal between three quotes, which has no escapes.  In a string
literal they agree up to the first escape.  `SplitsPlainly` says that nothing behind
that escape closes a body; then whatever is embedded stands in front of it, and
`read_identifier_place` finds the name of an identifier at its place.

A derivation says which tokens a tree was read from, and `Laid` where these stand.
So the proof goes down from a tree to an identifier in it (`Occurs`), and keeps that
the tokens stand in the source; it needs the literal only where it enters a template.

The whole library is imported for the examples, which `cbv` runs by the equations of core
functions that it finds there.
-/
import Mathlib
import TypedPrompt.Proofs.Expr.Occurrence
import TypedPrompt.Proofs.Reading.DerivedExpressions
import TypedPrompt.Proofs.Reading.Forms
import TypedPrompt.Proofs.Source.Places
import TypedPrompt.Proofs.Token.Layout
import TypedPrompt.Reading.Source

namespace TypedPrompt

/-! ## What stands in a source -/

/-- The token stands in the source, at its place. -/
def Token.StandsIn (source : List Char) (t : Token) : Prop :=
  ∃ before lexeme rest, source = before ++ (lexeme ++ rest)
    ∧ t.start = Position.start.after before ∧ Spells lexeme t.kind t.text.toList

/-- The tokens of a piece of the source stand in the source. -/
theorem standsIn_of_tokensOf {source inside : List Char} {eof : Token} {ts : List Token}
    (before rest : List Char) (hsource : source = before ++ (inside ++ rest))
    (hts : tokensOf (Position.start.after before) inside = Tokens.ofList eof ts) :
    ∀ t ∈ ts, t.StandsIn source := by
  intro t ht
  obtain ⟨front, lexeme, behind, heq, hstart, -, hs⟩ :=
    (laid_of_tokensOf Position.start before hts).1.mem ht
  refine ⟨front, lexeme, behind ++ rest, ?_, ?_, hs⟩
  · rw [hsource, ← List.append_assoc, heq]
    simp
  · rw [hstart, Position.after_eq_counted]

namespace Piece

/-- A body stands between two marks in the text, at its place. -/
theorem Split.body_mem {p start : Position} {cs inside : List Char} {ps : List Piece}
    (h : Split p cs ps) (hm : .body start inside ∈ ps) :
    ∃ before rest, cs = before ++ (openMark ++ (inside ++ (closeMark ++ rest)))
      ∧ start = p.after (before ++ openMark) := by
  induction h with
  | nil => simp at hm
  | @text p run rest _ _ _ _ _ ih =>
      obtain ⟨before, rest', rfl, rfl⟩ := ih (by simpa using hm)
      exact ⟨run ++ before, rest', by simp, by simp [Position.after_append]⟩
  | @body p inside' rest _ _ _ ih =>
      rcases List.mem_cons.mp hm with heq | hm
      · cases heq
        exact ⟨[], rest, rfl, rfl⟩
      · obtain ⟨before, rest', rfl, rfl⟩ := ih hm
        exact ⟨openMark ++ (inside' ++ (closeMark ++ before)), rest', by simp,
          by simp [Position.after_append]⟩

end Piece

/-- If the source goes on with a string literal, all that is embedded in it stands in
front of the first escape. -/
def SplitsPlainly (cs : List Char) : Prop :=
  ∀ written text rest, cs = '"' :: (written ++ '"' :: rest) → Escaped written text →
    ∃ shown hidden, text = shown ++ hidden ∧ shown <+: written ∧ ¬ Piece.closeMark <:+: hidden

theorem splitsPlainly_of_splitString {cs rest : List Char} (shown hidden written : List Char)
    (h : Lexeme.splitString cs = some (shown ++ hidden, written ++ ['"'], rest))
    (hshown : shown <+: written) (hhidden : ¬ Piece.closeMark <:+: hidden) :
    SplitsPlainly ('"' :: cs) := by
  intro written' text rest' heq hw
  obtain rfl : cs = written' ++ '"' :: rest' := List.tail_eq_of_cons_eq heq
  rw [Lexeme.splitString_of_escaped hw, Option.some.injEq, Prod.mk.injEq, Prod.mk.injEq] at h
  obtain ⟨htext, hraw, -⟩ := h
  obtain rfl := List.append_cancel_right hraw
  exact ⟨shown, hidden, htext, hshown, hhidden⟩

/-- In front of a closing mark that stands in the first part of a text. -/
theorem prefix_of_closeMark {front shown hidden : List Char} (rest : List Char)
    (h : front ++ (Piece.closeMark ++ rest) = shown ++ hidden)
    (hhidden : ¬ Piece.closeMark <:+: hidden) : front <+: shown := by
  rcases List.append_eq_append_iff.mp h with ⟨ds, rfl, -⟩ | ⟨ds, rfl, rfl⟩
  · exact List.prefix_append front ds
  · exact absurd ⟨ds, rest, by simp⟩ hhidden

/-- A body in a literal stands in the source, at the place that is counted for it. -/
theorem body_standsIn {source inside : List Char} {start : Position} {t : Token}
    {pieces : List Piece} (hstands : t.StandsIn source) (ht : Grammar.IsTextLiteral t)
    (hplain : ∀ cs, Position.start.textFrom source t.start = some cs → SplitsPlainly cs)
    (hsplit : Piece.Split (Reading.textStart t) t.text.toList pieces)
    (hm : .body start inside ∈ pieces) :
    ∃ before rest, source = before ++ (inside ++ rest)
      ∧ start = Position.start.after before := by
  obtain ⟨before, lexeme, rest, rfl, hstart, hs⟩ := hstands
  obtain ⟨front, behind, htext, hbody⟩ := hsplit.body_mem hm
  rw [Reading.textStart_eq, hstart, ← Position.after_append, ← Position.after_append] at hbody
  rw [hstart] at hplain
  generalize t.text.toList = text at htext hs
  rcases ht with ht | ht
  · rw [ht] at hs hbody
    cases hs with
    | @string written _ hw =>
        -- the literal up to the closing mark of the body is not escaped
        obtain ⟨shown, hidden, heq, hshown, hhidden⟩ :=
          hplain _ (Position.textFrom_after ..) written text rest (by simp) hw
        have hfront : front ++ (Piece.openMark ++ inside) <+: shown := by
          refine prefix_of_closeMark behind ?_ hhidden
          rw [← heq, htext]
          simp
        obtain ⟨more, rfl⟩ := hfront.trans hshown
        refine ⟨_, more ++ ('"' :: rest), ?_, hbody⟩
        simp
  · rw [ht] at hs hbody
    cases hs with
    | template _ =>
        refine ⟨_, Piece.closeMark ++ (behind ++ (Lexeme.tripleQuote ++ rest)), ?_, hbody⟩
        rw [htext]
        simp

/-! ## Identifiers -/

namespace Expr

open Grammar

/-- The literal of a template embeds nothing behind an escape. -/
def EmbedsPlainly (source : List Char) (e : Expr) : Prop :=
  ∀ loc parts cs, e = .template loc parts →
    Position.start.textFrom source loc.position = some cs → SplitsPlainly cs

theorem embedsPlainly_template {source cs : List Char} {loc : Location} {parts : List (Part Expr)}
    (h : Position.start.textFrom source loc.position = some cs) (hcs : SplitsPlainly cs) :
    (template loc parts).EmbedsPlainly source := by
  rintro _ _ cs' ⟨⟩ hcs'
  obtain rfl : cs = cs' := Option.some.inj (h.symm.trans hcs')
  exact hcs

/-- An identifier in a tree was read from a name that stands in the source. -/
theorem identifier_standsIn {file : String} {source : List Char} {ts : List Token}
    {e g : Expr} {above : List Expr} {l : Location} {name : String}
    (ho : Occurs g above e) (hg : g = .identifier l name) (he : Expression file ts e)
    (hts : ∀ t ∈ ts, t.StandsIn source) (hplain : ∀ q ∈ above, q.EmbedsPlainly source) :
    ∃ t : Token, t.StandsIn source ∧ t.kind = .name ∧ t.start = l.position ∧ t.text = name := by
  induction ho generalizing ts with
  | here e =>
      subst hg
      rcases he.single_or_operands with ⟨t, ht, hs⟩ | ho
      · cases hs with
        | identifier hk => exact ⟨t, hts t ht, hk, rfl, rfl⟩
      · exact absurd rfl ho.1
  | @under e f _ above hf _ ih =>
      have hplain' : ∀ q ∈ above, q.EmbedsPlainly source :=
        fun q hq => hplain q (List.mem_cons_of_mem e hq)
      rcases he.single_or_operands with ⟨t, ht, hs⟩ | ho
      · -- of the single tokens, only a template has something inside
        cases hs with
        | @template _ pieces parts hk _ hsplit hparts =>
            obtain ⟨part, hpart, hembedded⟩ := List.mem_filterMap.mp hf
            obtain ⟨piece, hpiece, h⟩ := forall₂_mem_right hparts hpart
            cases h with
            | text => cases hembedded
            | @body start inside eof us f' _ hus hf' =>
                obtain rfl : f' = f := Option.some.inj hembedded
                obtain ⟨before, rest, hsource, rfl⟩ := body_standsIn (hts t ht) hk
                  (fun cs hcs => hplain _ List.mem_cons_self _ _ cs rfl hcs) hsplit hpiece
                exact ih hg hf' (standsIn_of_tokensOf before rest hsource hus) hplain'
        | _ => cases hf
      · obtain ⟨us, hus, hf'⟩ := ho.2 f hf
        exact ih hg hf' (fun t ht => hts t (hus ht)) hplain'

/-- Where a source is read, each identifier of the tree stands at its place, if the templates
around it embed nothing behind an escape. -/
theorem read_identifier_place {settings : Reading.Settings} {source : String} {e : Expr}
    (h : read settings Context.top source = .ok e) {l : Location} {name : String}
    {above : List Expr} (ho : Occurs (.identifier l name) above e)
    (hplain : ∀ q ∈ above, q.EmbedsPlainly source.toList) :
    ∃ rest, Position.start.textFrom source.toList l.position = some (name.toList ++ rest) := by
  obtain ⟨eof, ts, hts, he⟩ := exists_derivation_of_read h
  have hstands : ∀ t ∈ ts, t.StandsIn source.toList :=
    standsIn_of_tokensOf [] [] (by simp) hts
  obtain ⟨t, ⟨before, lexeme, rest, hsource, hstart, hs⟩, hk, hl, rfl⟩ :=
    identifier_standsIn ho rfl he hstands hplain
  rw [hk] at hs
  generalize htext : t.text.toList = text at hs
  cases hs with
  | name _ _ _ => exact ⟨rest, by rw [← hl, hstart, hsource, Position.textFrom_after]⟩

/-- A template in a template, and an escape behind what is embedded. -/
theorem read_identifier_place_nested :
    let source := "\"\"\"\x7b\x7b\n\"\x7b\x7bx\x7d\x7d\\n\"\x7d\x7d\"\"\""
    ∃ e above, read ⟨"main", 4, 8⟩ Context.top source = .ok e
      ∧ Occurs (.identifier ⟨⟨2, 4⟩, "main"⟩ "x") above e
      ∧ ∃ rest, Position.start.textFrom source.toList ⟨2, 4⟩ = some ("x".toList ++ rest) := by
  intro source
  have h : read ⟨"main", 4, 8⟩ Context.top source
      = .ok (.template ⟨⟨1, 1⟩, "main"⟩ [.embed (.template ⟨⟨2, 1⟩, "main"⟩
          [.embed (.identifier ⟨⟨2, 4⟩, "main"⟩ "x"), .text "\n"])]) := by
    cbv
  have ho : Occurs (.identifier ⟨⟨2, 4⟩, "main"⟩ "x") _
      (.template ⟨⟨1, 1⟩, "main"⟩ [.embed (.template ⟨⟨2, 1⟩, "main"⟩
          [.embed (.identifier ⟨⟨2, 4⟩, "main"⟩ "x"), .text "\n"])]) :=
    .under List.mem_cons_self (.under List.mem_cons_self (.here _))
  have houter : Position.start.textFrom source.toList ⟨1, 1⟩
      = some ['"', '"', '"', '{', '{', '\n', '"', '{', '{', 'x', '}', '}', '\\', 'n', '"', '}', '}',
          '"', '"', '"'] := by
    cbv
  have hinner : Position.start.textFrom source.toList ⟨2, 1⟩
      = some ['"', '{', '{', 'x', '}', '}', '\\', 'n', '"', '}', '}', '"', '"', '"'] := by
    cbv
  refine ⟨_, _, h, ho, read_identifier_place h ho ?_⟩
  simp only [List.forall_mem_cons, List.not_mem_nil, false_implies, implies_true, and_true]
  constructor
  · refine embedsPlainly_template houter (splitsPlainly_of_splitString [] [] [] rfl ?_ ?_)
      <;> decide
  · refine embedsPlainly_template hinner (splitsPlainly_of_splitString
      ['{', '{', 'x', '}', '}'] ['\n'] ['{', '{', 'x', '}', '}', '\\', 'n'] rfl ?_ ?_) <;> decide

/-- An escape in front of what is embedded puts it one column too far to the left. -/
theorem read_identifier_displaced :
    let source := "\"\\\"\x7b\x7bx\x7d\x7d\""
    read ⟨"main", 4, 8⟩ Context.top source
        = .ok (.template ⟨⟨1, 1⟩, "main"⟩ [.text "\"", .embed (.identifier ⟨⟨1, 5⟩, "main"⟩ "x")])
      ∧ ∀ rest, Position.start.textFrom source.toList ⟨1, 5⟩ ≠ some ("x".toList ++ rest) := by
  intro source
  constructor
  · cbv
  · have hfrom : Position.start.textFrom source.toList ⟨1, 5⟩ = some "\x7bx\x7d\x7d\"".toList := by
      cbv
    intro rest hrest
    rw [hfrom] at hrest
    simp at hrest

end Expr

end TypedPrompt
