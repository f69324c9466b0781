/-
# `Yaml.Quoted` — scalars in quotes

In single quotes every character stands for itself, and two quotes for one.  In
double quotes a backslash gives characters by a letter or by their code, and at the
end of a line it joins the line to the next one.  Both may go on over several lines
(`Yaml.Folding`), but not over the mark of a document.
-/
import TypedPrompt.Yaml.Fault
import TypedPrompt.Yaml.Folding

namespace TypedPrompt.Yaml

/-- Puts a character that was written with `n` characters in front of what was read. -/
def consGlyph (glyph : Glyph) (n : Nat) (r : Except Fault (Taken (List Glyph))) :
    Except Fault (Taken (List Glyph)) :=
  r.map fun (gs, length) => (glyph :: gs, length + n)

/-- The characters of a scalar in single quotes, from behind the opening quote on. -/
def singleQuoted : List Char → Except Fault (Taken (List Glyph))
  | [] => .error .malformed
  | '\'' :: '\'' :: cs => consGlyph (.char '\'') 2 (singleQuoted cs)
  | '\'' :: _ => .ok ([], 1)
  | c :: cs =>
      if isLineEnd c && isMark cs then .error .malformed
      else consGlyph (Glyph.ofChar c) 1 (singleQuoted cs)

/-! ## Escapes -/

/-- The characters that one letter behind a backslash stands for. -/
def escapes : List (Char × Char) :=
  [('0', '\x00'), ('a', '\x07'), ('b', '\x08'), ('t', '\t'), ('\t', '\t'), ('n', '\n'),
   ('v', '\x0b'), ('f', '\x0c'), ('r', '\r'), ('e', '\x1b'), (' ', ' '), ('"', '"'),
   ('\\', '\\'), ('/', '/'), ('N', '\u0085'), ('_', '\u00a0'), ('L', '\u2028'), ('P', '\u2029')]

/-- How many hexadecimal digits follow a letter behind a backslash. -/
def codeLengths : List (Char × Nat) := [('x', 2), ('u', 4), ('U', 8)]

/-- The number that so many hexadecimal digits at the front of a text stand for. -/
def codeAt? (length : Nat) (cs : List Char) : Option Nat :=
  let ds := cs.take length
  if ds.length = length ∧ ds.all (isDigitOf 16) then some (natOfBase 16 ds) else none

/-- The code that an escape at the front of a text gives: the second half of a pair. -/
def secondHalf? : List Char → Option Nat
  | '\\' :: 'u' :: cs => (codeAt? 4 cs).filter fun n => 0xDC00 ≤ n ∧ n < 0xE000
  | _ => none

/-- The character of a code, before a text, and the number of characters of that text
that belong to it: a half of a pair takes the other half, and the replacement
character stands for one by itself. -/
def charOf (code : Nat) (cs : List Char) : Char × Nat :=
  if code.isValidChar then (Char.ofNat code, 0)
  else
    match secondHalf? cs with
    | some low =>
        if code < 0xDC00 then
          (Char.ofNat (0x10000 + (code - 0xD800) * 0x400 + (low - 0xDC00)), 6)
        else ('\uFFFD', 0)
    | none => ('\uFFFD', 0)

/-- The character that a letter behind a backslash stands for, and the number of
characters behind the backslash: a letter alone, or a letter and a code. -/
def escaped (letter : Char) (cs : List Char) : Except Fault (Taken Char) :=
  match List.lookup letter escapes with
  | some c => .ok (c, 1)
  | none =>
      match List.lookup letter codeLengths with
      | none => .error .malformed
      | some length =>
          match codeAt? length cs with
          | none => .error .malformed
          | some code =>
              if 0x110000 ≤ code then .error (.scalar (.noSuchCharacter code))
              else
                let (c, more) := charOf code (cs.drop length)
                .ok (c, length + 1 + more)

/-- The characters of a scalar in double quotes, from behind the opening quote on. -/
def doubleQuoted : List Char → Except Fault (Taken (List Glyph))
  | [] => .error .malformed
  | '"' :: _ => .ok ([], 1)
  | '\\' :: c :: cs =>
      if isLineEnd c then
        if isMark cs then .error .malformed else consGlyph .joint 2 (doubleQuoted cs)
      else do
        let (d, length) ← escaped c cs
        consGlyph (.char d) (length + 1) (doubleQuoted (cs.drop (length - 1)))
  | c :: cs =>
      if isLineEnd c && isMark cs then .error .malformed
      else consGlyph (Glyph.ofChar c) 1 (doubleQuoted cs)
termination_by cs => cs.length
decreasing_by all_goals simp +arith

/-- The text of the quoted scalar at the front of a text, and the number of its characters
with the quotes. -/
def readQuoted (cs : List Char) : Except Fault (Taken (List Char)) :=
  match cs with
  | '\'' :: rest => (singleQuoted rest).map fun (gs, length) => (fold gs, length + 1)
  | '"' :: rest => (doubleQuoted rest).map fun (gs, length) => (fold gs, length + 1)
  | _ => .error .malformed

end TypedPrompt.Yaml
