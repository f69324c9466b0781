/-
# `Schema.Fit` — whether a value is of a type

A value fits a type or differs from it, or the question is given up: every step
into a type takes up one level of room, and a step that finds none left ends the
whole test.  The steps are taken from left to right and no further than needed,
so a value can differ from a type before the room gives out.

Lists hold their bounds and every item fits; a union wants one of its members
and an intersection all of them; a record wants its fields, of which only the
optional ones may be absent, and tolerates further entries if it is open.  No
value fits the bottom type, a function type or a prompt type.
-/
import TypedPrompt.Ty.Basic
import TypedPrompt.Value.Basic

namespace TypedPrompt

/-- The outcome of holding a value against a type. -/
inductive Fit where
  | fits
  | differs
  /-- the room gave out before the question was settled -/
  | tooDeep
  deriving DecidableEq, Repr

namespace Fit

/-- The outcome of a test that needs no room. -/
def ofBool : Bool → Fit
  | true => fits
  | false => differs

/-- Both have to fit; the second is not looked at unless the first does. -/
@[macro_inline]
def both (a b : Fit) : Fit :=
  match a with
  | fits => b
  | other => other

/-- One has to fit; the second is not looked at unless the first differs. -/
@[macro_inline]
def either (a b : Fit) : Fit :=
  match a with
  | differs => b
  | other => other

/-- Every outcome has to be a fit; the first that is not decides. -/
def all : List Fit → Fit
  | [] => fits
  | a :: rest => a.both (all rest)

/-- Some outcome has to be a fit; the first that does not differ decides. -/
def any : List Fit → Fit
  | [] => differs
  | a :: rest => a.either (any rest)

end Fit

/-- The values of a primitive type. -/
def Primitive.holds : Primitive → Value → Bool
  | string, .str _ => true
  | number, .int _ => true
  | number, .real _ => true
  | boolean, .bool _ => true
  | null, .null => true
  | _, _ => false

namespace Ty

/-- The length of a list is within its bounds. -/
def withinBounds (least most : Option Int) (length : Nat) : Bool :=
  (match least with
    | some n => decide (n ≤ length)
    | none => true)
  && (match most with
    | some n => decide ((length : Int) ≤ n)
    | none => true)

/-- Every entry is one of the fields. -/
def declaresAll (fields : List (Field Ty)) (entries : Entries Value) : Bool :=
  entries.all fun entry => fields.any fun field => field.name == entry.1

mutual

/-- Holds a value against a type, with `room` levels left below this one. -/
def fit (room : Int) (t : Ty) (v : Value) : Fit :=
  if room < 0 then .tooDeep
  else
    match t with
    | primitive p => .ofBool (p.holds v)
    | any => .fits
    | dynamic => .fits
    | dynamicOf c => fit (room - 1) c v
    | list e least most =>
        match v with
        | .arr items =>
            (Fit.ofBool (withinBounds least most items.length)).both
              (Fit.all (items.map fun item => fit (room - 1) e item))
        | _ => .differs
    | union ts => fitSome (room - 1) ts v
    | inter ts => fitEach (room - 1) ts v
    | record fs isOpen =>
        match v with
        | .obj es => (fitFields (room - 1) fs es).both (.ofBool (isOpen || declaresAll fs es))
        | _ => .differs
    | never => .differs
    | function _ _ => .differs
    | prompt _ _ _ _ => .differs

/-- Holds a value against one type after the other, until it fits. -/
def fitSome (room : Int) : List Ty → Value → Fit
  | [], _ => .differs
  | t :: ts, v => (fit room t v).either (fitSome room ts v)

/-- Holds a value against every type. -/
def fitEach (room : Int) : List Ty → Value → Fit
  | [], _ => .fits
  | t :: ts, v => (fit room t v).both (fitEach room ts v)

/-- Holds the entries of an object against every field. -/
def fitFields (room : Int) : List (Field Ty) → Entries Value → Fit
  | [], _ => .fits
  | ⟨name, t, isOptional, _⟩ :: fs, es =>
      (match Entries.find? es name with
        | some v => fit room t v
        | none => .ofBool isOptional).both (fitFields room fs es)

end

/-! The tests on lists of types are those on lists of outcomes. -/

theorem fitSome_eq (room : Int) (ts : List Ty) (v : Value) :
    fitSome room ts v = Fit.any (ts.map fun t => fit room t v) := by
  induction ts <;> simp_all [fitSome, Fit.any]

theorem fitEach_eq (room : Int) (ts : List Ty) (v : Value) :
    fitEach room ts v = Fit.all (ts.map fun t => fit room t v) := by
  induction ts <;> simp_all [fitEach, Fit.all]

end Ty

end TypedPrompt
