/-
# `Schema.Predicate` — properties of values

The properties that a field of a schema can ask for beyond its type, with the
names by which they are known.
-/
import TypedPrompt.Value.Basic

namespace TypedPrompt.Value

/-- A number above zero; truth values are not numbers here. -/
def isPositive : Value → Bool
  | int n => decide (0 < n)
  | real x => x.isPositive
  | _ => false

/-- A text, an array or an object with something in it. -/
def isNonempty : Value → Bool
  | str s => !s.isEmpty
  | arr items => !items.isEmpty
  | obj entries => !entries.isEmpty
  | _ => false

/-- The properties by name. -/
def predicates : Entries (Value → Bool) :=
  [("always", fun _ => true),
   ("never", fun _ => false),
   ("positive", isPositive),
   ("nonempty", isNonempty)]

end TypedPrompt.Value
