/-
# `Json.Text` — values as JSON text

The JSON text of a value on one line: a comma and a space between items, a
colon and a space after a name, entries in order, numbers in full, and text as
it is but for the quote, the backslash and the control characters.  The three
numbers that JSON has no form for are written `NaN`, `Infinity` and `-Infinity`,
which the reader beside this file accepts.

A value with an integer in it that has too many digits has no text.
-/
import TypedPrompt.Number.Layout
import TypedPrompt.Number.Numeral
import TypedPrompt.Text.Hexadecimal
import TypedPrompt.Value.Basic

namespace TypedPrompt.Json

/-- One character inside a JSON string. -/
def escapeChar (c : Char) : List Char :=
  match c with
  | '"' => ['\\', '"']
  | '\\' => ['\\', '\\']
  | '\n' => ['\\', 'n']
  | '\r' => ['\\', 'r']
  | '\t' => ['\\', 't']
  | '\x08' => ['\\', 'b']
  | '\x0c' => ['\\', 'f']
  | c => if c.toNat < 0x20 then '\\' :: 'u' :: Text.hexPadded 4 c.toNat else [c]

/-- A JSON string. -/
def stringText (s : String) : String :=
  String.ofList ('"' :: (s.toList.flatMap escapeChar ++ ['"']))

/-- A floating point number. -/
def realText : Binary64 → String
  | .nan => "NaN"
  | .infinite negative => if negative then "-Infinity" else "Infinity"
  | x => x.text

mutual

/-- The JSON text of a value. -/
def text : Value → Except OversizedInteger String
  | .null => .ok "null"
  | .bool b => .ok (if b then "true" else "false")
  | .int n => integerText n
  | .real x => .ok (realText x)
  | .str s => .ok (stringText s)
  | .arr items => (itemTexts items).map fun texts => "[" ++ ", ".intercalate texts ++ "]"
  | .obj entries =>
      (entryTexts entries).map fun texts => "\x7b" ++ ", ".intercalate texts ++ "\x7d"

/-- The texts of the items. -/
def itemTexts : List Value → Except OversizedInteger (List String)
  | [] => .ok []
  | v :: vs => do
      let first ← text v
      let rest ← itemTexts vs
      .ok (first :: rest)

/-- The texts of the entries. -/
def entryTexts : List (String × Value) → Except OversizedInteger (List String)
  | [] => .ok []
  | (name, v) :: es => do
      let first ← text v
      let rest ← entryTexts es
      .ok ((stringText name ++ ": " ++ first) :: rest)

end

end TypedPrompt.Json
