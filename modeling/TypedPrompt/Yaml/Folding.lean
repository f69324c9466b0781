/-
# `Yaml.Folding` — scalars over several lines

A scalar without quotes and one in quotes may go on over several lines.  Its text
is then folded: blanks around a line end are dropped, a line feed by itself becomes
a space, and of several line ends the first is dropped if it is a line feed.
Characters that were escaped take no part in this.
-/
import TypedPrompt.Yaml.Place

namespace TypedPrompt.Yaml

/-- A character of a scalar, as far as folding is concerned. -/
inductive Glyph where
  | char (c : Char)
  | blank (c : Char)
  | lineEnd (c : Char)
  /-- a line end that was escaped: the line goes on -/
  | joint
  deriving DecidableEq, Repr

/-- An unescaped character. -/
def Glyph.ofChar (c : Char) : Glyph :=
  if isLineEnd c then .lineEnd c else if c = ' ' ∨ c = '\t' then .blank c else .char c

/-- What line ends amount to. -/
def foldLineEnds : List Char → List Char
  | ['\n'] => [' ']
  | '\n' :: ends => ends
  | ends => ends

/-- What a gap between characters amounts to: its blanks, unless there are line ends in it. -/
def foldGap (blanks ends : List Char) : List Char :=
  if ends.isEmpty then blanks else foldLineEnds ends

mutual

/-- Folds characters, behind a gap of some blanks and line ends (the last one first). -/
def foldFrom (blanks ends : List Char) : List Glyph → List Char
  | [] => foldGap blanks.reverse ends.reverse
  | .char c :: gs => foldGap blanks.reverse ends.reverse ++ c :: foldFrom [] [] gs
  | .blank c :: gs => foldFrom (c :: blanks) ends gs
  | .lineEnd c :: gs => foldFrom blanks (c :: ends) gs
  | .joint :: gs => foldGap blanks.reverse ends.reverse ++ foldJoint gs

/-- Folds characters behind a joint, where blanks are dropped and line ends kept. -/
def foldJoint : List Glyph → List Char
  | [] => []
  | .char c :: gs => c :: foldFrom [] [] gs
  | .blank _ :: gs => foldJoint gs
  | .lineEnd c :: gs => c :: foldJoint gs
  | .joint :: gs => foldJoint gs

end

/-- The text of a scalar. -/
def fold (gs : List Glyph) : List Char := foldFrom [] [] gs

end TypedPrompt.Yaml
