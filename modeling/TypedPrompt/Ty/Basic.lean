/-
# `Ty.Basic` — types

The types of the language: four primitives, lists with optional bounds on their
length, records with optional fields that may tolerate further ones, functions
with named parameters, unions and intersections, a top and a bottom, prompts,
and the dynamic type that switches checking off, alone or under a constraint.

The file holds the type, its small queries and its equality.  Equality
(`Ty.same`) compares every attribute, also those that the subtype test ignores;
temperatures compare as numbers, so a type with a temperature that is no number
differs from itself.
-/
import TypedPrompt.Number.Binary64
import TypedPrompt.Text.Quoted

namespace TypedPrompt

/-- The types without parts. -/
inductive Primitive where
  | string
  | number
  | boolean
  | null
  deriving DecidableEq, Repr

namespace Primitive

/-- The name of a primitive type. -/
def name : Primitive → String
  | string => "string"
  | number => "number"
  | boolean => "boolean"
  | null => "null"

/-- All primitive types. -/
def all : List Primitive := [string, number, boolean, null]

/-- The primitive type of a name. -/
def ofName? (s : String) : Option Primitive := all.find? fun p => p.name == s

/-- The complaint about a name that no primitive type has. -/
def unknownText (s : String) : String := "unknown primitive type " ++ Text.quoted s

end Primitive

/-- A named parameter of a function type. -/
structure Param (τ : Type) where
  name : String
  type : τ
  isOptional : Bool

/-- A named field of a record type. -/
structure Field (τ : Type) where
  name : String
  type : τ
  isOptional : Bool
  description : Option String

/-- Types. -/
inductive Ty where
  | primitive (p : Primitive)
  | any
  | never
  | dynamic
  | dynamicOf (constraint : Ty)
  | list (element : Ty) (least most : Option Int)
  | record (fields : List (Field Ty)) (isOpen : Bool)
  | function (params : List (Param Ty)) (returns : Ty)
  | union (members : List Ty)
  | inter (members : List Ty)
  | prompt (input output : Ty) (model : Option String) (temperature : Option Binary64)

namespace Ty

/-- The type of texts. -/
abbrev string : Ty := .primitive .string

/-- The type of numbers. -/
abbrev number : Ty := .primitive .number

/-- The type of truth values. -/
abbrev boolean : Ty := .primitive .boolean

/-- The type of the null value. -/
abbrev null : Ty := .primitive .null

/-- The first field of a name. -/
def findField? (fields : List (Field Ty)) (name : String) : Option (Field Ty) :=
  fields.find? fun f => f.name == name

/-- How many parameters a call must supply. -/
def requiredCount (params : List (Param Ty)) : Nat := params.countP fun p => !p.isOptional

/-- The dynamic type, with or without a constraint. -/
def isDynamic : Ty → Bool
  | dynamic | dynamicOf _ => true
  | _ => false

/-- Equality of optional temperatures, as numbers. -/
def sameTemperature : Option Binary64 → Option Binary64 → Bool
  | some x, some y => x.sameNumber y
  | none, none => true
  | _, _ => false

mutual

/-- Equality of types, attribute by attribute. -/
def same : Ty → Ty → Bool
  | primitive p, u => match u with
      | primitive q => p == q
      | _ => false
  | any, u => match u with
      | any => true
      | _ => false
  | never, u => match u with
      | never => true
      | _ => false
  | dynamic, u => match u with
      | dynamic => true
      | _ => false
  | dynamicOf c, u => match u with
      | dynamicOf d => same c d
      | _ => false
  | list e least most, u => match u with
      | list f least' most' => same e f && least == least' && most == most'
      | _ => false
  | record fs isOpen, u => match u with
      | record gs isOpen' => sameFields fs gs && isOpen == isOpen'
      | _ => false
  | function ps r, u => match u with
      | function qs s => sameParams ps qs && same r s
      | _ => false
  | union ts, u => match u with
      | union us => sameAll ts us
      | _ => false
  | inter ts, u => match u with
      | inter us => sameAll ts us
      | _ => false
  | prompt i o model temperature, u => match u with
      | prompt i' o' model' temperature' =>
          same i i' && same o o' && model == model' && sameTemperature temperature temperature'
      | _ => false

/-- Equality of lists of types. -/
def sameAll : List Ty → List Ty → Bool
  | [], us => us.isEmpty
  | t :: ts, us => match us with
      | u :: us => same t u && sameAll ts us
      | [] => false

/-- Equality of lists of fields. -/
def sameFields : List (Field Ty) → List (Field Ty) → Bool
  | [], gs => gs.isEmpty
  | ⟨name, t, isOptional, description⟩ :: fs, gs => match gs with
      | g :: gs =>
          name == g.name && same t g.type && isOptional == g.isOptional
            && description == g.description && sameFields fs gs
      | [] => false

/-- Equality of lists of parameters. -/
def sameParams : List (Param Ty) → List (Param Ty) → Bool
  | [], qs => qs.isEmpty
  | ⟨name, t, isOptional⟩ :: ps, qs => match qs with
      | q :: qs =>
          name == q.name && same t q.type && isOptional == q.isOptional && sameParams ps qs
      | [] => false

end

instance : BEq Ty := ⟨same⟩

end Ty

end TypedPrompt
