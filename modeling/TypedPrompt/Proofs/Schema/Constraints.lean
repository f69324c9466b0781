/-
# `Proofs.Schema.Constraints` — the constraints that the projection builds

What each form of constraint says of a value, read off the meaning of its keywords:
one statement for each form, which what is proved of types then goes by.  A description
says nothing, so it can be left out of every other statement.
-/
import TypedPrompt.Proofs.Schema.Vocabulary
import TypedPrompt.Schema.Fit
import TypedPrompt.Schema.Projection

namespace TypedPrompt

open JsonSchema

namespace Constraint

/-- The value satisfies the constraint. -/
def admits (c : Constraint) (v : Value) : Bool := accepts (.obj c) v

theorem admits_eq (c : Constraint) (v : Value) : c.admits v = holdAll c c v := rfl

@[simp] theorem holdAll_ofKind (schema : Constraint) (kind : String) (v : Value) :
    holdAll schema (ofKind kind) v = (v.kindName == kind) := by
  simp [ofKind, holdAll, Keyword.ofName?]

theorem holdAll_bounds (schema : Constraint) (least most : Option Int) (items : List Value) :
    (holdAll schema (bound "minItems" least) (.arr items)
        && holdAll schema (bound "maxItems" most) (.arr items))
      = Ty.withinBounds least most items.length := by
  cases least <;> cases most <;> simp [bound, holdAll, Keyword.ofName?, Ty.withinBounds]

theorem admits_never (v : Value) : admits [("not", .obj [])] v = false := rfl

theorem declares_append_description (c : Constraint) (text : String) :
    declares (c ++ [("description", .str text)]) = declares c := by
  have hfind : Entries.find? (c ++ [("description", .str text)]) "properties"
      = Entries.find? c "properties" := by
    induction c with
    | nil => rfl
    | cons keyword rest ih => rw [List.cons_append, Entries.find?, Entries.find?, ih]
  funext name
  rw [declares, declares, hfind]

/-- A description says nothing of a value. -/
theorem admits_describedBy (c : Constraint) (description : Option String) (v : Value) :
    (c.describedBy description).admits v = c.admits v := by
  unfold describedBy
  split
  · split
    · rfl
    · next text _ =>
        rw [admits_eq, admits_eq, holdAll_append,
          holdAll_congr (declares_append_description c text)]
        simp [holdAll, Keyword.ofName?]
  · rfl

theorem admits_list {inner : Constraint} {least most : Option Int} {v : Value} :
    admits (ofKind "array" ++ [("items", .obj inner)] ++ bound "minItems" least
        ++ bound "maxItems" most) v = true ↔
      ∃ items, v = .arr items ∧ Ty.withinBounds least most items.length = true ∧
        ∀ x ∈ items, inner.admits x = true := by
  rw [admits_eq]
  simp only [holdAll_append, holdAll_ofKind, Bool.and_assoc]
  cases v with
  | arr items =>
      rw [holdAll_bounds]
      simp [holdAll, Keyword.ofName?, Value.kindName, admits, and_comm]
  | _ => simp [Value.kindName]

theorem admits_object {properties : Entries Value} {required : List String} {isOpen : Bool}
    {v : Value} :
    admits (object properties required
        ++ if isOpen then [] else [("additionalProperties", .bool false)]) v = true ↔
      ∃ es, v = .obj es ∧ (∀ p ∈ properties, entryAccepted es p = true) ∧
        (∀ name ∈ required, Entries.has es name = true) ∧
        (isOpen || es.all fun entry => Entries.has properties entry.1) = true := by
  rw [admits_eq]
  simp only [object, holdAll_append, holdAll_ofKind]
  cases v with
  | obj es =>
      cases isOpen <;>
        simp [holdAll, Keyword.ofName?, Value.kindName, holdProperties_eq, hasNamed, declares,
          ofKind, Entries.find?, accepts, and_assoc]
  | _ => simp [Value.kindName]

/-- An object with properties that tolerates others. -/
theorem admits_open {properties : Entries Value} {required : List String} {v : Value} :
    admits (object properties required) v = true ↔
      ∃ es, v = .obj es ∧ (∀ p ∈ properties, entryAccepted es p = true) ∧
        ∀ name ∈ required, Entries.has es name = true := by
  have h := @admits_object properties required true v
  simpa using h

theorem admits_allOf {cs : List Constraint} {v : Value} :
    admits [("allOf", .arr (cs.map .obj))] v = true ↔ ∀ c ∈ cs, c.admits v = true := by
  rw [admits_eq]
  simp [holdAll, Keyword.ofName?, acceptEach_eq, admits]

theorem admits_oneOf {cs : List Constraint} {v : Value} :
    admits [("oneOf", .arr (cs.map .obj))] v = true ↔ (cs.countP fun c => c.admits v) = 1 := by
  rw [admits_eq]
  simp [holdAll, Keyword.ofName?, acceptCount_eq, List.countP_map, Function.comp_def, admits]

end Constraint

end TypedPrompt
