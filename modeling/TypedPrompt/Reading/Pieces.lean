/-
# `Reading.Pieces` — the pieces of a template text

The text of a literal is split at `{{` and `}}` before anything in it is read.
An opening mark that stands outside begins a body, which ends at the closing
mark that balances it; marks are counted two characters at a time from the left.
What stands between bodies is text.  A body that is never closed ends the
splitting, since nothing behind its opening mark is known to be outside.

Each body comes with the place where it begins.  `splitBody_append` and
`spell_pieces` say that no character is lost.
-/
import TypedPrompt.Source.Position

namespace TypedPrompt

/-- A piece of the text of a literal. -/
inductive Piece where
  | text (cs : List Char)
  /-- what stands between balancing marks, `start` being the place of its first character -/
  | body (start : Position) (cs : List Char)
  /-- the rest of the text behind an opening mark that is never closed -/
  | unclosed (cs : List Char)
  deriving DecidableEq, Repr

namespace Piece

/-- The mark that opens a body. -/
def openMark : List Char := ['{', '{']

/-- The mark that closes a body. -/
def closeMark : List Char := ['}', '}']

/-- Whether an opening mark occurs in a text. -/
def hasOpenMark : List Char → Bool
  | '{' :: '{' :: _ => true
  | _ :: cs => hasOpenMark cs
  | [] => false

/-- The text up to the closing mark that balances `depth` marks besides the one
that was opened last, and the rest behind it. -/
def splitBody : Nat → List Char → Option (List Char × List Char)
  | _, [] => none
  | depth, '{' :: '{' :: cs =>
      (splitBody (depth + 1) cs).map fun (inside, rest) => ('{' :: '{' :: inside, rest)
  | 0, '}' :: '}' :: cs => some ([], cs)
  | depth + 1, '}' :: '}' :: cs =>
      (splitBody depth cs).map fun (inside, rest) => ('}' :: '}' :: inside, rest)
  | depth, c :: cs => (splitBody depth cs).map fun (inside, rest) => (c :: inside, rest)

theorem splitBody_append {depth : Nat} {cs inside rest : List Char}
    (h : splitBody depth cs = some (inside, rest)) : inside ++ (closeMark ++ rest) = cs := by
  fun_induction splitBody depth cs generalizing inside rest with
  | case1 => simp at h
  | case3 cs => simp only [Option.some.injEq, Prod.mk.injEq] at h; simp [← h.1, ← h.2, closeMark]
  | case2 _ _ ih | case4 _ _ ih | case5 _ _ _ _ _ _ ih =>
      obtain ⟨⟨b, r⟩, hs, he⟩ := Option.map_eq_some_iff.1 h
      simp only [Prod.mk.injEq] at he
      simp [← he.1, ← he.2, ih hs]

theorem splitBody_rest_lt {depth : Nat} {cs inside rest : List Char}
    (h : splitBody depth cs = some (inside, rest)) : rest.length < cs.length := by
  rw [← splitBody_append h]
  simp [closeMark]
  omega

/-- Puts a character in front of the first piece of text. -/
def consText (c : Char) : List Piece → List Piece
  | text cs :: ps => text (c :: cs) :: ps
  | ps => text [c] :: ps

/-- The pieces of a text that begins at `p`. -/
def pieces (p : Position) (cs : List Char) : List Piece :=
  match cs with
  | '{' :: '{' :: cs =>
      let start := p.after openMark
      match h : splitBody 0 cs with
      | none => [unclosed cs]
      | some (inside, rest) =>
          have := splitBody_rest_lt h
          .body start inside :: pieces (start.after (inside ++ closeMark)) rest
  | c :: cs => consText c (pieces (p.step c) cs)
  | [] => []
termination_by cs.length

/-- A piece as it stands in the text. -/
def spell : Piece → List Char
  | text cs => cs
  | body _ cs => openMark ++ cs ++ closeMark
  | unclosed cs => openMark ++ cs

theorem spell_consText (c : Char) (ps : List Piece) :
    (consText c ps).flatMap spell = c :: ps.flatMap spell := by
  unfold consText
  split <;> simp [spell]

/-- The pieces of a text, put together again, are the text. -/
theorem spell_pieces (p : Position) (cs : List Char) : (pieces p cs).flatMap spell = cs := by
  fun_induction pieces p cs with
  | case1 p cs h => simp [spell, openMark]
  | case2 p cs start inside rest h _ ih =>
      simp only [List.flatMap_cons, spell, ih]
      simp [openMark, ← splitBody_append h]
  | case3 p c cs _ ih => simp [spell_consText, ih]
  | case4 => rfl

end Piece

end TypedPrompt
