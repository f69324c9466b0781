/-
# `Typing.Judgement` — answers with a log

What the rules say about a part of a tree: diagnostics in the order in which
they came up, and an answer, or the fault that ended the checking.  A fault ends
it for good, but the diagnostics before the fault stay.
-/
import TypedPrompt.Typing.Diagnostic

namespace TypedPrompt

/-- Diagnostics, and an answer or a fault. -/
structure Judgement (α : Type) where
  log : List Diagnostic
  answer : Except TreeFault α

namespace Judgement

variable {α β : Type}

/-- An answer without diagnostics. -/
def pure (a : α) : Judgement α := ⟨[], .ok a⟩

/-- Goes on with an answer; the diagnostics of both parts are kept, in order. -/
def bind (j : Judgement α) (f : α → Judgement β) : Judgement β :=
  match j.answer with
  | .ok a => ⟨j.log ++ (f a).log, (f a).answer⟩
  | .error fault => ⟨j.log, .error fault⟩

instance : Monad Judgement where
  pure := pure
  bind := bind

/-- A fault. -/
def fail (fault : TreeFault) : Judgement α := ⟨[], .error fault⟩

/-- A diagnostic about the node at a place. -/
def report (loc : Location) (complaint : Complaint) : Judgement Unit :=
  ⟨[⟨complaint, loc⟩], .ok ()⟩

/-- A diagnostic, unless a condition holds. -/
def require (condition : Bool) (loc : Location) (complaint : Complaint) : Judgement Unit :=
  if condition then pure () else report loc complaint

end Judgement

end TypedPrompt
