/-
# `Limits` — how deep untrusted input may go

Three bounds guard the recursions over input that comes from outside: templates
inside one another, expressions and types inside one another, and arrays and
objects of a value inside one another.
-/

namespace TypedPrompt

/-- Bounds on the depth of input. -/
structure Limits where
  interpolation : Int
  value : Int
  nesting : Int
  deriving DecidableEq, Repr

/-- The bounds in force where nothing else is configured. -/
def Limits.standard : Limits := ⟨16, 64, 64⟩

end TypedPrompt
