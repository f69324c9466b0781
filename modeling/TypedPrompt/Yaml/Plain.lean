/-
# `Yaml.Plain` — scalars without quotes

A plain scalar goes on as far as its characters do: up to a colon with a gap behind
it, a comment, a tab, and, where brackets are open, up to what separates their
contents.  It goes on over a line end only to columns to the right of the
collection around it, unless brackets are open, and never over the mark of a
document.
-/
import TypedPrompt.Yaml.Folding

namespace TypedPrompt.Yaml

/-- A collection's brackets are open around the place, or none are. -/
inductive Style where
  | flow
  | block
  deriving DecidableEq, Repr

/-- The characters that separate the parts of a bracketed collection. -/
def separators : List Char := [',', '[', ']', '\x7b', '\x7d']

/-- The characters with which no plain scalar begins. -/
def indicators : List Char :=
  separators ++ ['-', '?', ':', '#', '&', '*', '!', '|', '>', '\'', '"', '%', '@', '\x60']

/-- A plain scalar can begin here. -/
def beginsPlain (style : Style) : List Char → Bool
  | [] => false
  | c :: cs =>
      (!isGap c && !(c ∈ indicators))
        || (!gapFollows cs && (c == '-' || (style == .block && (c == '?' || c == ':'))))

/-- A character, before some others, that ends a plain scalar. -/
def endsPlain (style : Style) (c : Char) (cs : List Char) : Bool :=
  c == '\t'
    || (c == ':' && (gapFollows cs
      || (style == .flow && (cs.head?.map (separators.contains ·)).getD false)))
    || (style == .flow && (c == '?' || separators.contains c))

/-- How many characters of a text are a plain scalar, behind a gap of so many
characters; `least` is the leftmost column that it may go on in. -/
def plainLength (style : Style) (least column gap : Nat) : List Char → Nat
  | [] => 0
  | c :: cs =>
      if isLineEnd c then if isMark cs then 0 else plainLength style least 0 (gap + 1) cs
      else if c = ' ' then plainLength style least (column + 1) (gap + 1) cs
      else if endsPlain style c cs
          || (decide (0 < gap) && (c == '#' || (style == .block && decide (column < least)))) then 0
      else gap + 1 + plainLength style least (column + columnsOf c) 0 cs

/-- The text of the plain scalar at a place, and the number of its characters. -/
def readPlain (style : Style) (least : Nat) (p : Place) : List Char × Nat :=
  let length := plainLength style least p.column 0 p.rest
  (fold ((p.rest.take length).map Glyph.ofChar), length)

end TypedPrompt.Yaml
