/-
# `Ty.Display` — types in messages

How a type is written in a diagnostic.  For most types this is also how a user
writes it; the exceptions are bounds (written as a range), openness and
descriptions (not shown), and temperatures (in brief form).  A member of a union
or an intersection stands in parentheses if it is a function, a union or an
intersection itself.

The text shows every bound in full.  A bound that was read is short enough to be
written again; for types from elsewhere `shownBounds` says which bounds there are.
-/
import TypedPrompt.Number.Layout
import TypedPrompt.Text.Quoted
import TypedPrompt.Ty.Basic

namespace TypedPrompt.Ty

/-- One end of a range, empty where there is no bound. -/
def boundText : Option Int → String
  | some n => toString n
  | none => ""

/-- The bounds of a list behind its element type. -/
def boundsText (least most : Option Int) : String :=
  if least.isNone && most.isNone then "" else ", " ++ boundText least ++ ".." ++ boundText most

/-- The model and the temperature of a prompt behind its two types. -/
def settingsText (model : Option String) (temperature : Option Binary64) : String :=
  (match model with
    | some m => ", " ++ Text.quoted m
    | none => "")
  ++ (match temperature with
    | some x => ", " ++ x.brief
    | none => "")

/-- A name, marked if it is optional. -/
def nameText (name : String) (isOptional : Bool) : String :=
  name ++ (if isOptional then "?" else "") ++ ": "

/-- Whether a type needs parentheses as a member. -/
def isCompound : Ty → Bool
  | function .. | union _ | inter _ => true
  | _ => false

/-- Parentheses around the text of a compound type. -/
def grouped (t : Ty) (text : String) : String :=
  if t.isCompound then "(" ++ text ++ ")" else text

mutual

/-- The text of a type. -/
def display : Ty → String
  | primitive p => p.name
  | any => "any"
  | never => "never"
  | dynamic => "dynamic"
  | dynamicOf c => "dynamic[" ++ display c ++ "]"
  | list e least most => "list[" ++ display e ++ boundsText least most ++ "]"
  | record fs _ => "record\x7b" ++ ", ".intercalate (displayFields fs) ++ "\x7d"
  | function ps r => "(" ++ ", ".intercalate (displayParams ps) ++ ") -> " ++ display r
  | union ts => " | ".intercalate (displayMembers ts)
  | inter ts => " & ".intercalate (displayMembers ts)
  | prompt i o model temperature =>
      "prompt[" ++ display i ++ ", " ++ display o ++ settingsText model temperature ++ "]"

/-- The texts of members. -/
def displayMembers : List Ty → List String
  | [] => []
  | t :: ts => grouped t (display t) :: displayMembers ts

/-- The texts of fields. -/
def displayFields : List (Field Ty) → List String
  | [] => []
  | ⟨name, t, isOptional, _⟩ :: fs => (nameText name isOptional ++ display t) :: displayFields fs

/-- The texts of parameters. -/
def displayParams : List (Param Ty) → List String
  | [] => []
  | ⟨name, t, isOptional⟩ :: ps => (nameText name isOptional ++ display t) :: displayParams ps

end

mutual

/-- The bounds that the text of a type shows, in order. -/
def shownBounds : Ty → List Int
  | primitive _ | any | never | dynamic => []
  | dynamicOf c => shownBounds c
  | list e least most => shownBounds e ++ (least.toList ++ most.toList)
  | record fs _ => shownBoundsFields fs
  | function ps r => shownBoundsParams ps ++ shownBounds r
  | union ts => shownBoundsAll ts
  | inter ts => shownBoundsAll ts
  | prompt i o _ _ => shownBounds i ++ shownBounds o

/-- The bounds in the texts of members. -/
def shownBoundsAll : List Ty → List Int
  | [] => []
  | t :: ts => shownBounds t ++ shownBoundsAll ts

/-- The bounds in the texts of fields. -/
def shownBoundsFields : List (Field Ty) → List Int
  | [] => []
  | ⟨_, t, _, _⟩ :: fs => shownBounds t ++ shownBoundsFields fs

/-- The bounds in the texts of parameters. -/
def shownBoundsParams : List (Param Ty) → List Int
  | [] => []
  | ⟨_, t, _⟩ :: ps => shownBounds t ++ shownBoundsParams ps

end

end TypedPrompt.Ty
