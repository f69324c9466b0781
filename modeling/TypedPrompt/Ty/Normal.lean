/-
# `Ty.Normal` — unions and intersections in normal form

A union or an intersection written by the user is stored flat, without
repetitions and without members that add nothing: `never` in a union, `any` in
an intersection, while a `never` makes a whole intersection `never`.  What is
left of no member is the neutral type, and a single member stands for itself.

Flattening goes one level deep, which is all there is below members that are in
normal form themselves.
-/
import TypedPrompt.Ty.Basic

namespace TypedPrompt.Ty

/-- The members of a union; any other type is its own only member. -/
def unionMembers : Ty → List Ty
  | union members => members
  | t => [t]

/-- The members of an intersection; any other type is its own only member. -/
def interMembers : Ty → List Ty
  | inter members => members
  | t => [t]

/-- The bottom type. -/
def isNever : Ty → Bool
  | never => true
  | _ => false

/-- The top type. -/
def isAny : Ty → Bool
  | any => true
  | _ => false

/-- Members put together: `none` if there are none, the member if there is one. -/
def gather (neutral : Ty) (build : List Ty → Ty) : List Ty → Ty
  | [] => neutral
  | [t] => t
  | ts => build ts

/-- The union of types, in normal form. -/
def unionOf (ts : List Ty) : Ty :=
  gather never union ((ts.flatMap unionMembers).filter fun t => !t.isNever).eraseDups

/-- The intersection of types, in normal form. -/
def interOf (ts : List Ty) : Ty :=
  let members := ts.flatMap interMembers
  if members.any isNever then never
  else gather any inter (members.filter fun t => !t.isAny).eraseDups

end TypedPrompt.Ty
