/-
# `Ty.Subtype` — where a value of one type may be used for another

The subtype test is directed by the two shapes.  `any` is above and `never`
below everything; the dynamic type is trusted on either side, except that a
constraint on the right has to be met.  A union on the left needs all of its
members, on the right one; for an intersection it is the other way round.
Between types of one shape:

* lists compare their elements, whatever the bounds;
* a record supplies every field that the other one asks for, under its name,
  and may leave out optional ones;
* a function may ask for no more arguments than the other one guarantees, takes
  at least as many, accepts the other's argument types and returns no more;
* a prompt accepts the other's input and returns no more.

The recursion goes down in the sizes of both sides together, since parameters
change sides.
-/
import TypedPrompt.Ty.Basic

namespace TypedPrompt.Ty

mutual

/-- A value of type `sub` may be used where `sup` is expected. -/
def isSubtype : Ty → Ty → Bool
  | _, any => true
  | never, _ => true
  | dynamic, _ => true
  | dynamicOf _, _ => true
  | _, dynamic => true
  | s, dynamicOf c => isSubtype s c
  | union ss, union ts => eachBelowSome ss ts
  | s, union ts => belowSome s ts
  | s, inter ts => belowEach s ts
  | inter ss, t => someBelow ss t
  | union ss, t => eachBelow ss t
  | primitive p, primitive q => p == q
  | list e _ _, list f _ _ => isSubtype e f
  | record fs _, record gs _ => suppliesFields fs gs
  | function ps r, function qs u =>
      decide (requiredCount ps ≤ requiredCount qs) && acceptsParams ps qs && isSubtype r u
  | prompt i o _ _, prompt j p _ _ => isSubtype j i && isSubtype o p
  | _, _ => false
termination_by sub sup => sizeOf sub + sizeOf sup

/-- `s` is below some type of the list. -/
def belowSome (s : Ty) : List Ty → Bool
  | [] => false
  | t :: ts => isSubtype s t || belowSome s ts
termination_by ts => sizeOf s + sizeOf ts

/-- `s` is below every type of the list. -/
def belowEach (s : Ty) : List Ty → Bool
  | [] => true
  | t :: ts => isSubtype s t && belowEach s ts
termination_by ts => sizeOf s + sizeOf ts

/-- Some type of the list is below `t`. -/
def someBelow : List Ty → Ty → Bool
  | [], _ => false
  | s :: ss, t => isSubtype s t || someBelow ss t
termination_by ss t => sizeOf ss + sizeOf t

/-- Every type of the list is below `t`. -/
def eachBelow : List Ty → Ty → Bool
  | [], _ => true
  | s :: ss, t => isSubtype s t && eachBelow ss t
termination_by ss t => sizeOf ss + sizeOf t

/-- Every type of the first list is below some type of the second. -/
def eachBelowSome : List Ty → List Ty → Bool
  | [], _ => true
  | s :: ss, ts => belowSome s ts && eachBelowSome ss ts
termination_by ss ts => sizeOf ss + sizeOf ts

/-- The fields `fs` supply every field of the second list that is not optional. -/
def suppliesFields (fs : List (Field Ty)) : List (Field Ty) → Bool
  | [] => true
  | g :: gs => suppliesField fs g && suppliesFields fs gs
termination_by gs => sizeOf fs + sizeOf gs

/-- The first of the fields with the name of `g` has a subtype of its type; there
need not be one if `g` is optional. -/
def suppliesField : List (Field Ty) → Field Ty → Bool
  | [], g => g.isOptional
  | ⟨name, t, _, _⟩ :: fs, ⟨name', u, isOptional, description⟩ =>
      if name = name' then isSubtype t u else suppliesField fs ⟨name', u, isOptional, description⟩
termination_by fs g => sizeOf fs + sizeOf g

/-- There are at least as many parameters as in the second list, and they accept
its types in order. -/
def acceptsParams : List (Param Ty) → List (Param Ty) → Bool
  | _, [] => true
  | [], _ :: _ => false
  | ⟨_, t, _⟩ :: ps, ⟨_, u, _⟩ :: qs => isSubtype u t && acceptsParams ps qs
termination_by ps qs => sizeOf ps + sizeOf qs

end

/-! The tests on lists are those of the library on `isSubtype`. -/

theorem belowSome_eq (s : Ty) (ts : List Ty) : belowSome s ts = ts.any (isSubtype s) := by
  induction ts <;> simp_all [belowSome]

theorem belowEach_eq (s : Ty) (ts : List Ty) : belowEach s ts = ts.all (isSubtype s) := by
  induction ts <;> simp_all [belowEach]

theorem someBelow_eq (ss : List Ty) (t : Ty) : someBelow ss t = ss.any (isSubtype · t) := by
  induction ss <;> simp_all [someBelow]

theorem eachBelow_eq (ss : List Ty) (t : Ty) : eachBelow ss t = ss.all (isSubtype · t) := by
  induction ss <;> simp_all [eachBelow]

theorem eachBelowSome_eq (ss ts : List Ty) :
    eachBelowSome ss ts = ss.all fun s => ts.any (isSubtype s) := by
  induction ss <;> simp_all [eachBelowSome, belowSome_eq]

end TypedPrompt.Ty
