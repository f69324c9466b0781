/-
# `Text.Quoted` — text between quotes

Diagnostics show a piece of text between quotes, so that its ends and its
invisible characters can be seen.  Single quotes are used, unless the text
holds a single quote and no double quote; the quote in use and the backslash
are escaped, line feed, carriage return and tab have letters, and any other
character that is not printable is given by its code in lower-case hexadecimal,
in the shortest of the widths two, four and eight.
-/
import TypedPrompt.Text.Hexadecimal
import TypedPrompt.Text.Printable

namespace TypedPrompt.Text

namespace Quoted

/-- The quote that surrounds a text. -/
def quoteFor (cs : List Char) : Char :=
  if '\'' ∈ cs ∧ '"' ∉ cs then '"' else '\''

/-- The escape of a character by its code. -/
def escapeCode (n : Nat) : List Char :=
  if n ≤ 0xFF then '\\' :: 'x' :: hexPadded 2 n
  else if n ≤ 0xFFFF then '\\' :: 'u' :: hexPadded 4 n
  else '\\' :: 'U' :: hexPadded 8 n

/-- One character inside quotes of the kind `quote`. -/
def escapeChar (quote c : Char) : List Char :=
  if c = quote ∨ c = '\\' then ['\\', c]
  else if c = '\n' then ['\\', 'n']
  else if c = '\r' then ['\\', 'r']
  else if c = '\t' then ['\\', 't']
  else if isPrintable c then [c]
  else escapeCode c.toNat

/-- The characters of the quoted form. -/
def encode (cs : List Char) : List Char :=
  quoteFor cs :: (cs.flatMap (escapeChar (quoteFor cs)) ++ [quoteFor cs])

end Quoted

/-- The text between quotes, with escapes. -/
def quoted (s : String) : String := String.ofList (Quoted.encode s.toList)

end TypedPrompt.Text
