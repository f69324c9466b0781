/-
# `Yaml.Place` — places in a document

A place in a document is what is left of it, with how many characters lie before
it, and with the line and the column, because indentation gives a document its
structure.

Lines end with a line feed, a line separator or a paragraph separator; other
line ends are written as line feeds before a document is looked at.  A mark of
byte order takes no column.
-/

namespace TypedPrompt.Yaml

/-- A character that ends a line. -/
def isLineEnd (c : Char) : Bool := c == '\n' || c == '\u2028' || c == '\u2029'

/-- A space, a tab or the end of a line. -/
def isGap (c : Char) : Bool := c == ' ' || c == '\t' || isLineEnd c

/-- The text ends or goes on with a gap. -/
def gapFollows : List Char → Bool
  | [] => true
  | c :: _ => isGap c

/-- The text ends or goes on with a gap that is no tab. -/
def openGapFollows (cs : List Char) : Bool := gapFollows cs && cs.head? != some '\t'

/-- A line begins with three of a character and a gap, which marks where a document
begins or ends. -/
def isMarkOf (c : Char) (cs : List Char) : Bool :=
  cs.take 3 == [c, c, c] && gapFollows (cs.drop 3)

/-- A line begins with the mark of a document. -/
def isMark (cs : List Char) : Bool := isMarkOf '-' cs || isMarkOf '.' cs

/-- How many columns a character takes. -/
def columnsOf (c : Char) : Nat := if c = '\uFEFF' then 0 else 1

/-- A place in a document. -/
structure Place where
  index : Nat
  line : Nat
  column : Nat
  rest : List Char
  deriving DecidableEq, Repr

namespace Place

/-- The beginning of a document. -/
def start (text : List Char) : Place := ⟨0, 0, 0, text⟩

/-- Nothing is left. -/
def isAtEnd (p : Place) : Bool := p.rest.isEmpty

/-- The place behind the next character. -/
def next (p : Place) : Place :=
  match p.rest with
  | [] => p
  | c :: cs =>
      if isLineEnd c then ⟨p.index + 1, p.line + 1, 0, cs⟩
      else ⟨p.index + 1, p.line, p.column + columnsOf c, cs⟩

/-- The place behind the next `n` characters. -/
def advance : Nat → Place → Place
  | 0, p => p
  | n + 1, p => advance n p.next

/-- Advancing leaves what is behind that many characters. -/
theorem rest_advance (n : Nat) (p : Place) : (p.advance n).rest = p.rest.drop n := by
  induction n generalizing p with
  | zero => rfl
  | succ n ih =>
      rw [advance, ih]
      unfold next
      split
      · next h => simp [h]
      · next h => split <;> simp [h]

end Place

/-- How many characters there are before the next token, which are spaces, line ends
and comments, and whether a line ends among them. -/
def gapLength (inComment : Bool) : List Char → Nat × Bool
  | [] => (0, false)
  | c :: cs =>
      if isLineEnd c then ((gapLength false cs).1 + 1, true)
      else if inComment || c == ' ' then
        ((gapLength inComment cs).1 + 1, (gapLength inComment cs).2)
      else if c = '#' then ((gapLength true cs).1 + 1, (gapLength true cs).2)
      else (0, false)

/-- The number of spaces at the front of a text. -/
def spacesAt (cs : List Char) : Nat := (cs.takeWhile (· == ' ')).length

/-- How many characters there are up to the end of the line, if they are spaces and a
comment. -/
def restOfLine? (cs : List Char) : Option Nat :=
  let spaces := spacesAt cs
  let behind := cs.drop spaces
  match behind with
  | [] => some spaces
  | c :: _ =>
      if c = '#' then some (spaces + (behind.takeWhile (!isLineEnd ·)).length)
      else if isLineEnd c then some spaces
      else none

end TypedPrompt.Yaml
