/-
# `Text.Blank` — white space

The one class of white space used throughout: between tokens, around an
interpolation body, around a fenced payload and around text that is to be read
as a number or a truth value.  It is larger than core's `Char.isWhitespace`:
the vertical tab, the form feed, the four information separators, the next-line
control and the space separators of the Unicode standard belong to it.
-/
import TypedPrompt.Text.Ranges

namespace TypedPrompt.Text

/-- The code points of white space. -/
def blankRanges : Ranges :=
  [(0x9, 0xD), (0x1C, 0x20), (0x85, 0x85), (0xA0, 0xA0), (0x1680, 0x1680), (0x2000, 0x200A),
   (0x2028, 0x2029), (0x202F, 0x202F), (0x205F, 0x205F), (0x3000, 0x3000)]

/-- White space. -/
def isBlank (c : Char) : Bool := blankRanges.contains c.toNat

/-- The text without the white space at its front. -/
def trimLeft (cs : List Char) : List Char := cs.dropWhile isBlank

/-- The text without the white space at its end. -/
def trimRight (cs : List Char) : List Char := (cs.reverse.dropWhile isBlank).reverse

/-- The text without the white space at either end. -/
def trim (cs : List Char) : List Char := trimRight (trimLeft cs)

theorem trimRight_isPrefix (cs : List Char) : trimRight cs <+: cs := by
  have h := List.dropWhile_suffix isBlank (l := cs.reverse)
  rwa [← List.reverse_prefix, List.reverse_reverse] at h

/-- What is left of a text stands in it. -/
theorem trim_isInfix (cs : List Char) : trim cs <:+: cs :=
  (trimRight_isPrefix _).isInfix.trans (List.dropWhile_suffix isBlank).isInfix

/-- Core's white space is white space here. -/
theorem isBlank_of_isWhitespace {c : Char} (h : c.isWhitespace = true) : isBlank c = true := by
  simp only [Char.isWhitespace, Bool.or_eq_true, decide_eq_true_eq] at h
  rcases h with ((h | h) | h) | h <;> subst h <;> decide

end TypedPrompt.Text
