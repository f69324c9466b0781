/-
# `Schema.Basic` — schemas

A schema is a named list of typed fields for an object that is expected from
outside.  A field may be required, may have a default that stands in for it when
it is absent, and may have a predicate that a value of its type has to satisfy.
No two fields of a schema have the same name.

Beside the type stand its view as a record type and the filling in of defaults,
which adds what is absent behind the entries that are there and changes none of
them.
-/
import TypedPrompt.Limits
import TypedPrompt.Text.Quoted
import TypedPrompt.Ty.Basic
import TypedPrompt.Value.Basic

namespace TypedPrompt

/-- A field of a schema. -/
structure SchemaField where
  name : String
  type : Ty
  isRequired : Bool
  description : Option String
  predicate : Option (Value → Bool)
  default : Option Value

namespace SchemaField

/-- An object without the field is at fault. -/
def mustBePresent (f : SchemaField) : Bool := f.isRequired && f.default.isNone

/-- The value satisfies the predicate, if the field has one. -/
def isSatisfiedBy (f : SchemaField) (v : Value) : Bool :=
  match f.predicate with
  | some p => p v
  | none => true

end SchemaField

/-- A named list of fields with names of their own. -/
structure Schema where
  name : String
  fields : List SchemaField
  description : Option String
  /-- how many levels of a value are looked at -/
  maxValueDepth : Int
  distinct : (fields.map SchemaField.name).Nodup

/-- A field has the name of an earlier one, and so there is no schema. -/
structure RepeatedField where
  field : String
  schema : String
  deriving DecidableEq, Repr

/-- The words for a repeated field. -/
def RepeatedField.text (r : RepeatedField) : String :=
  "duplicate schema field " ++ Text.quoted r.field ++ " in " ++ Text.quoted r.schema

/-- The first of the names that is among `seen` or came up before. -/
def firstRepeated (seen : List String) : List String → Option String
  | [] => none
  | name :: names => if name ∈ seen then some name else firstRepeated (name :: seen) names

/-- No name is repeated exactly if the names are pairwise different. -/
theorem firstRepeated_eq_none {seen names : List String} :
    firstRepeated seen names = none ↔ names.Nodup ∧ ∀ name ∈ names, name ∉ seen := by
  induction names generalizing seen with
  | nil => simp [firstRepeated]
  | cons name names ih =>
      by_cases h : name ∈ seen
      · simp [firstRepeated, h]
      · simp only [firstRepeated, h, if_false, ih, List.nodup_cons, List.mem_cons, not_or,
          forall_eq_or_imp]
        constructor
        · rintro ⟨hn, hs⟩
          exact ⟨⟨fun hm => (hs name hm).1 rfl, hn⟩, not_false, fun x hx => (hs x hx).2⟩
        · rintro ⟨⟨hm, hn⟩, -, hs⟩
          exact ⟨hn, fun x hx => ⟨fun he => hm (he ▸ hx), hs x hx⟩⟩

namespace Schema

/-- The schema of some fields. -/
def ofFields (name : String) (fields : List SchemaField) (description : Option String)
    (maxValueDepth : Int) : Except RepeatedField Schema :=
  match h : firstRepeated [] (fields.map SchemaField.name) with
  | some field => .error ⟨field, name⟩
  | none => .ok ⟨name, fields, description, maxValueDepth, (firstRepeated_eq_none.mp h).1⟩

/-- Adds the default of a field that is absent. -/
def fillDefault (es : Entries Value) (f : SchemaField) : Entries Value :=
  match f.default with
  | some d => if es.has f.name then es else es.put f.name d
  | none => es

/-- The entries with the defaults of all absent fields. -/
def fillDefaults (s : Schema) (es : Entries Value) : Entries Value :=
  s.fields.foldl fillDefault es

/-- An object with the defaults of all absent fields; any other value as it is. -/
def withDefaults (s : Schema) : Value → Value
  | .obj es => .obj (s.fillDefaults es)
  | v => v

/-- The schema as a record type; a field that is not required is optional. -/
def toType (s : Schema) : Ty :=
  .record (s.fields.map fun f => ⟨f.name, f.type, !f.isRequired, f.description⟩) true

end Schema

end TypedPrompt
