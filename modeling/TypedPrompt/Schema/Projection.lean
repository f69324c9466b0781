/-
# `Schema.Projection` — types as JSON Schema

The constraint that a type puts on values, in the vocabulary of JSON Schema, as
the entries of an object in a fixed order.  A union becomes `oneOf` and an
intersection `allOf`; what may be anything becomes the empty constraint and what
may be nothing its negation; a record that is closed forbids further properties.
Types of which no value is, functions and prompts, have no projection, and a
type that has one of them inside has none either: the first of them is reported.
-/
import TypedPrompt.Schema.Basic
import TypedPrompt.Ty.Display

namespace TypedPrompt

/-- A type without a projection. -/
structure Unprojectable where
  type : Ty

/-- The words for a type without a projection. -/
def Unprojectable.text (u : Unprojectable) : String :=
  "type " ++ u.type.display ++ " has no JSON Schema projection"

/-- A constraint of JSON Schema: its keywords in order. -/
abbrev Constraint := Entries Value

namespace Constraint

/-- The constraint that the value is of a kind. -/
def ofKind (kind : String) : Constraint := [("type", .str kind)]

/-- A keyword with a number, if there is one. -/
def bound (keyword : String) : Option Int → Constraint
  | some n => [(keyword, .int n)]
  | none => []

/-- The constraint with a description behind it, unless that is empty. -/
def describedBy (c : Constraint) : Option String → Constraint
  | some text => if text.isEmpty then c else c ++ [("description", .str text)]
  | none => c

/-- The constraint on an object with some properties. -/
def object (properties : Entries Value) (required : List String) : Constraint :=
  ofKind "object"
    ++ [("properties", .obj properties), ("required", .arr (required.map Value.str))]

end Constraint

namespace Ty

mutual

/-- The constraint that a type puts on a value. -/
def constraint : Ty → Except Unprojectable Constraint
  | primitive p => .ok (Constraint.ofKind p.name)
  | any => .ok []
  | never => .ok [("not", .obj [])]
  | dynamic => .ok []
  | dynamicOf c => constraint c
  | list e least most => do
      let inner ← constraint e
      .ok (Constraint.ofKind "array" ++ [("items", .obj inner)]
        ++ Constraint.bound "minItems" least ++ Constraint.bound "maxItems" most)
  | record fs isOpen => do
      let properties ← fieldConstraints fs
      let required := (fs.filter fun f => !f.isOptional).map Field.name
      .ok (Constraint.object (Entries.putAll [] properties) required
        ++ if isOpen then [] else [("additionalProperties", .bool false)])
  | function ps r => .error ⟨function ps r⟩
  | union ts => do
      let members ← constraints ts
      .ok [("oneOf", .arr members)]
  | inter ts => do
      let members ← constraints ts
      .ok [("allOf", .arr members)]
  | prompt i o model temperature => .error ⟨prompt i o model temperature⟩

/-- The constraints of several types. -/
def constraints : List Ty → Except Unprojectable (List Value)
  | [] => .ok []
  | t :: ts => do
      let first ← constraint t
      let rest ← constraints ts
      .ok (.obj first :: rest)

/-- The constraints of fields under their names, each with its description. -/
def fieldConstraints : List (Field Ty) → Except Unprojectable (List (String × Value))
  | [] => .ok []
  | ⟨name, t, _, description⟩ :: fs => do
      let first ← constraint t
      let rest ← fieldConstraints fs
      .ok ((name, .obj (Constraint.describedBy first description)) :: rest)

end

end Ty

/-- The constraint that a schema puts on an object. -/
def Schema.constraint (s : Schema) : Except Unprojectable Constraint := do
  let properties ← s.fields.mapM fun f => do
    .ok (f.name, .obj (Constraint.describedBy (← f.type.constraint) f.description))
  .ok (Constraint.object properties ((s.fields.filter SchemaField.isRequired).map SchemaField.name))

end TypedPrompt
