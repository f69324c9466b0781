/-
# `Yaml.Indented` — scalars by indentation

A scalar behind a bar or an angle is the run of lines that are indented as far as
its first one, or by the number that its header gives.  Behind a bar the lines
stand as they are; behind an angle a line feed between two lines that begin with no
blank is folded.  The header also says what becomes of the line ends at the end:
the first one is kept, or none, or all of them.
-/
import TypedPrompt.Yaml.Quoted

namespace TypedPrompt.Yaml

/-- What becomes of the line ends behind the last line. -/
inductive Chomping where
  | clip
  | strip
  | keep
  deriving DecidableEq, Repr

/-- The header of an indented scalar. -/
structure Header where
  chomping : Chomping
  /-- the indentation, counted from that of the collection around -/
  indent : Option Nat
  deriving DecidableEq, Repr

/-- The chomping that a character stands for. -/
def chompingOf? (c : Char) : Option Chomping :=
  if c = '+' then some .keep else if c = '-' then some .strip else none

/-- The indentation that a digit stands for; none is no indentation. -/
def indentOf? (c : Char) : Option Nat :=
  if Text.isDigit c ∧ c ≠ '0' then Text.hexValue? c else none

/-- The header behind its bar or angle, and the number of its characters. -/
def headerOf (cs : List Char) : Header × Nat :=
  match cs with
  | [] => (⟨.clip, none⟩, 0)
  | c :: rest =>
      match chompingOf? c, indentOf? c with
      | some chomping, _ =>
          match rest.head?.bind indentOf? with
          | some n => (⟨chomping, some n⟩, 2)
          | none => (⟨chomping, none⟩, 1)
      | none, some n =>
          match rest.head?.bind chompingOf? with
          | some chomping => (⟨chomping, some n⟩, 2)
          | none => (⟨.clip, some n⟩, 1)
      | none, none => (⟨.clip, none⟩, 0)

/-! ## Lines -/

/-- A line of a document, with the character that ends it. -/
structure Line where
  text : List Char
  ending : Option Char
  deriving DecidableEq, Repr

namespace Line

/-- The lines of a text. -/
def split : List Char → List Line
  | [] => []
  | c :: cs =>
      if isLineEnd c then ⟨[], some c⟩ :: split cs
      else
        match split cs with
        | [] => [⟨[c], none⟩]
        | l :: ls => { l with text := c :: l.text } :: ls

/-- The number of characters of a line. -/
def length (l : Line) : Nat := l.text.length + l.ending.toList.length

/-- The number of spaces at the front. -/
def indentation (l : Line) : Nat := spacesAt l.text

/-- Nothing but spaces. -/
def isBlank (l : Line) : Bool := l.text.all (· == ' ')

/-- A line end with no more than `indent` spaces in front. -/
def isEmptyAt (indent : Nat) (l : Line) : Bool :=
  l.isBlank && decide (l.text.length ≤ indent) && l.ending.isSome

/-- A line that belongs to a scalar with this indentation. -/
def belongs (indent : Nat) (l : Line) : Bool :=
  l.isEmptyAt indent || (decide (indent ≤ l.indentation) && decide (indent < l.text.length))

end Line

/-- The indentation of the first line that is not blank, or of a blank line above it
that reaches further. -/
def foundIndentation (lines : List Line) : Nat :=
  let blanks := lines.takeWhile Line.isBlank
  ((blanks ++ (lines.drop blanks.length).take 1).map Line.indentation).foldl max 0

/-! ## The text -/

/-- A text that begins with neither a space nor a tab. -/
def beginsSolid (cs : List Char) : Bool :=
  !((cs.head?.map fun c => c == ' ' || c == '\t').getD false)

/-- What stands between a line and the next one, with empty lines in between.  A line
feed is folded between lines that begin solid. -/
def lineJoint (folds : Bool) (line : List Char) (ending : Option Char) (empty next : List Char) :
    List Char :=
  if folds && ending == some '\n' && beginsSolid line && beginsSolid next then
    (if empty.isEmpty then [' '] else empty)
  else ending.toList ++ empty

/-- The text of the lines of a scalar, behind a last line (if there was one) and the
ends of empty lines. -/
def joinLines (folds : Bool) (chomping : Chomping) (indent : Nat)
    (last : Option (List Char × Option Char)) (empty : List Char) : List Line → List Char
  | [] =>
      (if chomping = .strip then [] else (last.bind Prod.snd).toList)
        ++ (if chomping = .keep then empty else [])
  | l :: ls =>
      if l.isEmptyAt indent then
        joinLines folds chomping indent last (empty ++ l.ending.toList) ls
      else
        let text := l.text.drop indent
        (match last with
          | some (line, ending) => lineJoint folds line ending empty text
          | none => empty)
          ++ text ++ joinLines folds chomping indent (some (text, l.ending)) [] ls

/-- The text of an indented scalar, from behind its bar or angle on, and the number of
its characters; `least` is the leftmost column that it may stand in. -/
def readIndented (folds : Bool) (least : Nat) (cs : List Char) : Except Fault (Taken (List Char)) :=
  let (header, headerLength) := headerOf cs
  let behind := cs.drop headerLength
  if !openGapFollows behind then .error .malformed
  else
    match restOfLine? behind with
    | none => .error .malformed
    | some rest =>
        let lineLength := rest + ((behind.drop rest).take 1).length
        let lines := Line.split (behind.drop lineLength)
        let least := max least 1
        let indent :=
          match header.indent with
          | some n => least + n - 1
          | none => max least (foundIndentation lines)
        let own := lines.takeWhile (Line.belongs indent)
        .ok (joinLines folds header.chomping indent none [] own,
          headerLength + lineLength + own.foldl (fun n l => n + l.length) 0)

end TypedPrompt.Yaml
