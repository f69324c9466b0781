/-
# `Value.Display` — values in messages

The text of a value in a diagnostic or a description: words for null and the
truth values, numbers in full, quoted text, arrays in brackets and objects in
braces with their entries in order.  It is meant to be read by people; the form
that is read back by programs is the JSON text.
-/
import TypedPrompt.Number.Layout
import TypedPrompt.Text.Quoted
import TypedPrompt.Value.Basic

namespace TypedPrompt.Value

/-- The words for null and the truth values. -/
def wordFor : Value → String
  | bool true => "True"
  | bool false => "False"
  | _ => "None"

mutual

/-- The text of a value in a message. -/
def display : Value → String
  | int n => toString n
  | real x => x.text
  | str s => Text.quoted s
  | arr items => "[" ++ ", ".intercalate (displayItems items) ++ "]"
  | obj entries => "\x7b" ++ ", ".intercalate (displayEntries entries) ++ "\x7d"
  | v => wordFor v

/-- The texts of the items. -/
def displayItems : List Value → List String
  | [] => []
  | v :: vs => display v :: displayItems vs

/-- The texts of the entries, each behind its quoted name. -/
def displayEntries : List (String × Value) → List String
  | [] => []
  | (name, v) :: es => (Text.quoted name ++ ": " ++ display v) :: displayEntries es

end

end TypedPrompt.Value
