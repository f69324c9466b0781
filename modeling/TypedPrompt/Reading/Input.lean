/-
# `Reading.Input` — reading tokens one by one

The input of a reader is the current token and the tokens ahead of it.  Stepping
forward makes the next token the current one; at the end it does nothing, and
where the tokens end in a fault that fault is raised, before anything is said
about the token that was just left behind.

A `Reader` takes something off the input or fails.  The two repetitions at the
end of the file are bounded by the number of tokens left.  Each round takes at
least one token, so when the bound is used up the end of the input is the
current token, and there is nothing left to repeat.
-/
import TypedPrompt.Reading.Failure

namespace TypedPrompt

/-- The current token and those ahead of it. -/
structure Input where
  current : Token
  ahead : Tokens
  deriving DecidableEq, Repr

namespace Input

/-- The input at the first of some tokens. -/
def ofTokens : Tokens → Except Failure Input
  | .cons t rest => .ok ⟨t, rest⟩
  | .finish t => .ok ⟨t, .finish t⟩
  | .fault e => .error (.lexical e)

/-- The input at the next token. -/
def advance (i : Input) : Except Failure Input := ofTokens i.ahead

/-- The number of tokens left, the end not counted. -/
def size (i : Input) : Nat :=
  if i.current.kind = .endOfInput then 0 else i.ahead.length + 1

end Input

/-- Takes something off the input, or fails. -/
abbrev Reader (α : Type) := StateT Input (Except Failure) α

namespace Reader

variable {α : Type}

/-- The current token. -/
def peek : Reader Token := fun i => .ok (i.current, i)

/-- The current token, which is left behind. -/
def step : Reader Token := fun i => i.advance.map fun j => (i.current, j)

/-- Fails at a token. -/
def failAt (t : Token) (cause : SyntaxCause) : Reader α :=
  fun _ => .error (.syntactic cause t.start)

/-- Whether the current token is of a kind. -/
def at? (kind : Kind) : Reader Bool := fun i => .ok (i.current.kind == kind, i)

/-- Leaves a token of a kind behind, if it is the current one. -/
def accept (kind : Kind) : Reader Bool := do
  if ← at? kind then
    let _ ← step
    return true
  else return false

/-- The current token, which must be of a kind and is left behind. -/
def expect (kind : Kind) (what : Expectation) : Reader Token := do
  let t ← peek
  if t.kind = kind then step else failAt t (.expected what t)

/-- What a reader would answer, without taking anything. -/
def ahead (r : Reader α) : Reader α := fun i => (r i).map fun (a, _) => (a, i)

/-- An answer that does not hang on the input. -/
def lift (r : Except Failure α) : Reader α := fun i => r.map fun a => (a, i)

/-- The number of tokens left. -/
def size : Reader Nat := fun i => .ok (i.size, i)

/-- Items with a separator between them, at least one.  An item is told the
items before it. -/
def separatedWithin (sep : Kind) (item : List α → Reader α) : Nat → List α → Reader (List α)
  | 0, before => do
      let a ← item before
      return [a]
  | bound + 1, before => do
      let a ← item before
      if ← accept sep then
        let more ← separatedWithin sep item bound (before ++ [a])
        return a :: more
      else return [a]

/-- Items with a separator between them, at least one. -/
def separated (sep : Kind) (item : List α → Reader α) : Reader (List α) := do
  separatedWithin sep item (← size) []

/-- Items as long as the current token begins one. -/
def repeatedWithin (begins : Kind → Bool) (item : Reader α) : Nat → Reader (List α)
  | 0 => return []
  | bound + 1 => do
      if begins (← peek).kind then
        let a ← item
        let more ← repeatedWithin begins item bound
        return a :: more
      else return []

/-- Items as long as the current token begins one. -/
def repeated (begins : Kind → Bool) (item : Reader α) : Reader (List α) := do
  repeatedWithin begins item (← size)

end Reader

end TypedPrompt
