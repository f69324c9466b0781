/-
# `Proofs.Reading.Interpolations` — a template loses nothing

Where the text of a literal is read as a template, its pieces put together are that text,
and each part of the tree comes from one piece: a run of text as it is, or a body between
two marks that balance there first.  A body is read as a source of its own, which begins
where the body stands, one template deeper and with the levels that are left
(`PartFrom`).

If instead an interpolation is found to be never closed, it is in the literal or in one
of its bodies (`HoldsUnclosed`).
-/
import TypedPrompt.Proofs.Reading.Embedding
import TypedPrompt.Proofs.Reading.Faults

namespace TypedPrompt.Reading

open Reader Grammar

/-- The piece that a part of a template comes from. -/
inductive PartFrom (settings : Settings) (depth nesting : Int) : Piece → Part Expr → Prop where
  | text (cs : List Char) : PartFrom settings depth nesting (.text cs) (.text (String.ofList cs))
  | body {start : Position} {cs : List Char} {e : Expr} :
      ¬ cs.all Text.isBlank = true → Piece.BalancesFirst cs →
      Expr.read settings ⟨start, depth + 1, nesting⟩ (String.ofList cs) = .ok e →
      PartFrom settings depth nesting (.body start cs) (.embed e)

section

variable {settings : Settings} {depth nesting : Int}

/-- A body is read as a source of its own. -/
theorem interpolation_within (start : Position) (cs : List Char) :
    (Inner.within settings (settings.maxNesting - nesting).toNat depth).interpolation start cs
      = Expr.read settings ⟨start, depth + 1, nesting⟩ (String.ofList cs) := by
  simp only [Inner.within, Expr.read, String.toList_ofList]

theorem partFrom_of_part {t : Token} {piece : Piece} {p : Part Expr}
    (hbody : ∀ start cs, piece = .body start cs → Piece.BalancesFirst cs)
    (hp : part settings (.within settings (settings.maxNesting - nesting).toNat depth) depth t piece
      = .ok p) : PartFrom settings depth nesting piece p := by
  rcases part_eq_ok hp with ⟨cs, rfl, rfl⟩ | ⟨start, cs, e, rfl, rfl, hblank, -, he⟩
  · exact .text cs
  · rw [interpolation_within] at he
    exact .body hblank (hbody start cs rfl) he

/-- A literal with an opening mark in it is read as a template. -/
theorem primary_eq_template {inner : Inner} {i : Input} (ht : IsTextLiteral i.current)
    (hmark : Piece.openMark <:+: i.current.text.toList) :
    primary settings inner depth i = template settings inner depth i := by
  have hopen := Piece.hasOpenMark_iff.mpr hmark
  rcases ht with hk | hk <;>
    simp [primary, peek, Bind.bind, StateT.bind, Except.bind, hk, textLiteral, hopen]

/-- What is read from a literal with an opening mark in it, and when it is not closed. -/
theorem primary_template (settings : Settings) (depth nesting : Int) {i : Input}
    (ht : IsTextLiteral i.current) (hmark : Piece.openMark <:+: i.current.text.toList) :
    let inner := Inner.within settings (settings.maxNesting - nesting).toNat depth
    (∀ e j, primary settings inner depth i = .ok (e, j) →
        i.advance = .ok j ∧ ∃ pieces parts, e = .template (place settings i.current) parts
          ∧ pieces.flatMap Piece.spell = i.current.text.toList
          ∧ Piece.Split (textStart i.current) i.current.text.toList pieces
          ∧ List.Forall₂ (PartFrom settings depth nesting) pieces parts)
      ∧ (SyntaxCause.unclosedInterpolation.text = "Unterminated interpolation in template"
        ∧ ∀ p, primary settings inner depth i
            = .error (.syntactic .unclosedInterpolation p) → HoldsUnclosed i.current p) := by
  intro inner
  rw [primary_eq_template ht hmark]
  constructor
  · intro e j h
    obtain ⟨hj, parts, hparts, rfl⟩ := template_eq_ok_iff.mp h
    have hread := mapM_eq_ok_iff.mp hparts
    have hclosed : ∀ q ∈ Piece.pieces (textStart i.current) i.current.text.toList,
        q.isUnclosed = false := by
      intro q hq
      obtain ⟨p, -, hp⟩ := forall₂_mem_left hread hq
      cases q with
      | unclosed cs => cases hp
      | _ => rfl
    have hsplit := Piece.split_pieces hclosed
    refine ⟨hj, _, parts, rfl, Piece.spell_pieces _ _, hsplit, ?_⟩
    have hmem := (List.forall₂_and_left _ _).mpr ⟨fun _ hq => hq, hread⟩
    refine hmem.imp fun piece p ⟨hpiece, hp⟩ => partFrom_of_part ?_ hp
    rintro start cs rfl
    obtain ⟨_, ⟨hbalances, -⟩, -⟩ := Piece.hasBody_of_mem hpiece
    exact hbalances
  · refine ⟨rfl, fun p hp => ?_⟩
    refine holdsUnclosed_of_template (fun start cs f q hf hq => ?_) ht hp rfl
    exact exists_holdsUnclosed_of_complete (blames_expressionWithin settings _ (depth + 1)) hf hq

end

/-- A template with a template in a body, and one with a body in which a string has a mark
that is never closed. -/
theorem primary_template_nested :
    let settings : Settings := ⟨"main", 4, 8⟩
    let read := primary settings (.within settings (settings.maxNesting - 1).toNat 0) 0
    let eof : Tokens := .finish (Token.endAt ⟨1, 20⟩)
    let nested : Token := ⟨.template, "p\x7b\x7b \"\x7b\x7bx\x7d\x7d\" \x7d\x7dq", ⟨1, 1⟩, ⟨1, 20⟩⟩
    let broken : Token := ⟨.template, "\x7b\x7b \"\x7b\x7bx\" \x7d\x7d \x7d\x7d", ⟨1, 1⟩, ⟨1, 20⟩⟩
    (∃ j pieces parts, parts.length = 3
        ∧ read ⟨nested, eof⟩ = .ok (.template ⟨⟨1, 1⟩, "main"⟩ parts, j)
        ∧ pieces.flatMap Piece.spell = nested.text.toList
        ∧ List.Forall₂ (PartFrom settings 0 1) pieces parts)
      ∧ read ⟨broken, eof⟩ = .error (.syntactic .unclosedInterpolation ⟨1, 7⟩)
      ∧ HoldsUnclosed broken ⟨1, 7⟩ := by
  intro settings read eof nested broken
  have hread : read ⟨nested, eof⟩ = .ok (.template ⟨⟨1, 1⟩, "main"⟩ [.text "p",
      .embed (.template ⟨⟨1, 8⟩, "main"⟩ [.embed (.identifier ⟨⟨1, 11⟩, "main"⟩ "x")]),
      .text "q"], ⟨Token.endAt ⟨1, 20⟩, eof⟩) := by
    dsimp only [read, settings, nested, eof]
    cbv
  have hfail : read ⟨broken, eof⟩ = .error (.syntactic .unclosedInterpolation ⟨1, 7⟩) := by
    dsimp only [read, settings, broken, eof]
    cbv
  have hopen : Piece.hasOpenMark nested.text.toList = true := by
    dsimp only [nested]
    cbv
  have hopen' : Piece.hasOpenMark broken.text.toList = true := by
    dsimp only [broken]
    cbv
  obtain ⟨-, pieces, parts, he, hspell, -, hparts⟩ :=
    (primary_template settings 0 1 (i := ⟨nested, eof⟩) (.inr rfl)
      (Piece.hasOpenMark_iff.mp hopen)).1 _ _ hread
  obtain ⟨-, rfl⟩ := Expr.template.inj he
  have hholds := (primary_template settings 0 1 (i := ⟨broken, eof⟩) (.inr rfl)
    (Piece.hasOpenMark_iff.mp hopen')).2.2 _ hfail
  exact ⟨⟨_, pieces, _, rfl, hread, hspell, hparts⟩, hfail, hholds⟩

end TypedPrompt.Reading
