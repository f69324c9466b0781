/-
# `Source.Position` — places in a source

A place is a line and a column, both counted from 1 in a source that stands on
its own; a source that is cut out of another one begins where it stood.  A line
feed starts the next line, every other character moves one column on.  The place
behind a piece of text is the fold of that step over it, so positions add up over
concatenation.
-/

namespace TypedPrompt

/-- A line and a column. -/
structure Position where
  line : Int
  column : Int
  deriving DecidableEq, Repr

namespace Position

/-- Where a source begins. -/
def start : Position := ⟨1, 1⟩

/-- The place behind one character. -/
def step (p : Position) (c : Char) : Position :=
  if c = '\n' then ⟨p.line + 1, 1⟩ else ⟨p.line, p.column + 1⟩

/-- The place behind a piece of text. -/
def after (p : Position) (cs : List Char) : Position := cs.foldl step p

@[simp] theorem after_nil (p : Position) : p.after [] = p := rfl

theorem after_append (p : Position) (cs ds : List Char) :
    p.after (cs ++ ds) = (p.after cs).after ds := by
  simp [after, List.foldl_append]

end Position

/-- A place in a named file. -/
structure Location where
  position : Position
  file : String
  deriving DecidableEq, Repr

namespace Location

/-- The name of a source that has no file. -/
def promptFile : String := "<prompt>"

/-- The name of an annotation that has no file. -/
def typeFile : String := "<type>"

/-- The place of a node that comes from no source. -/
def unknown : Location := ⟨⟨0, 0⟩, promptFile⟩

/-- A message with its place in front. -/
def label (l : Location) (message : String) : String :=
  l.file ++ ":" ++ toString l.position.line ++ ":" ++ toString l.position.column ++ ": " ++ message

end Location

end TypedPrompt
