/-
# `Schema.Validation` — what is wrong with a value

Validation goes through the fields in order and collects what is wrong with each:
at most one violation a field.  A field whose value is of its type is put to its
predicate; no other value is.  An object with no violations is valid, and an
entry that is not declared is no violation.

Violations are put into words as they are found.  The words may show integers,
which are the limit on levels or the bounds of lists in a type, and an integer
with too many digits cannot be written: then there is no report at all.
-/
import TypedPrompt.Json.Fault
import TypedPrompt.Number.Numeral
import TypedPrompt.Schema.Basic
import TypedPrompt.Schema.Fit
import TypedPrompt.Ty.Display

namespace TypedPrompt

/-- What is wrong with a value, or with the text that was to hold one. -/
inductive Violation where
  | notObject
  | unreadable (text : List Char) (fault : Json.Fault)
  | valueTooDeep (limit : Int)
  | missing (field : String)
  | fieldTooDeep (field : String) (limit : Int)
  | mismatch (field : String) (expected : Ty) (found : String)
  | rejected (field : String)

namespace Violation

/-- The field at fault; empty where it is the value as a whole. -/
def path : Violation → String
  | notObject | unreadable _ _ | valueTooDeep _ => ""
  | missing field | fieldTooDeep field _ | mismatch field _ _ | rejected field => field

/-- The words for a value with too many levels. -/
def depthText (limit : Int) : String :=
  "Value nested deeper than " ++ toString limit ++ " levels"

/-- The words for a violation. -/
def message : Violation → String
  | notObject => "Value must be an object"
  | unreadable text fault => "Failed to parse JSON: " ++ fault.message text
  | valueTooDeep limit => depthText limit
  | missing field => "Required field '" ++ field ++ "' is missing"
  | fieldTooDeep _ limit => depthText limit
  | mismatch _ expected found => "Expected type " ++ expected.display ++ ", got " ++ found
  | rejected field => "Custom validation failed for field '" ++ field ++ "'"

/-- The words behind the field at fault. -/
def text (e : Violation) : String :=
  if e.path.isEmpty then e.message else e.path ++ ": " ++ e.message

/-- The integers in the words for a violation that come from the schema. -/
def integers : Violation → List Int
  | valueTooDeep limit | fieldTooDeep _ limit => [limit]
  | mismatch _ expected _ => expected.shownBounds
  | notObject | unreadable _ _ | missing _ | rejected _ => []

/-- All integers in the words for a violation can be written. -/
def isSayable (e : Violation) : Bool := e.integers.all fun n => !isOverlong n

/-- The violations, if all of them can be put into words. -/
def report (es : List Violation) : Except OversizedInteger (List Violation) :=
  if es.all isSayable then .ok es else .error .mk

theorem report_eq_error_iff {es : List Violation} :
    report es = .error .mk ↔ ∃ e ∈ es, e.isSayable = false := by
  unfold report
  split
  · next h => simpa using h
  · next h => simpa using h

/-- A report leaves nothing out. -/
theorem report_eq_ok_iff {es es' : List Violation} :
    report es = .ok es' ↔ (∀ e ∈ es, e.isSayable = true) ∧ es = es' := by
  rw [← List.all_eq_true, report]
  cases es.all isSayable <;> simp

end Violation

namespace Schema

/-- Holds the value of a field against its type. -/
def fitField (s : Schema) (f : SchemaField) (v : Value) : Fit := f.type.fit s.maxValueDepth v

/-- What is wrong with the value of a field. -/
def fieldViolation (s : Schema) (f : SchemaField) (v : Value) : Option Violation :=
  match s.fitField f v with
  | .tooDeep => some (.fieldTooDeep f.name s.maxValueDepth)
  | .differs => some (.mismatch f.name f.type v.kindName)
  | .fits => if f.isSatisfiedBy v then none else some (.rejected f.name)

/-- Nothing is wrong with a value that is of the type and satisfies the predicate. -/
theorem fieldViolation_eq_none_iff {s : Schema} {f : SchemaField} {v : Value} :
    s.fieldViolation f v = none ↔ s.fitField f v = .fits ∧ f.isSatisfiedBy v = true := by
  unfold fieldViolation
  cases s.fitField f v <;> simp

/-- What is wrong with an object as far as one field is concerned. -/
def entryViolation (s : Schema) (es : Entries Value) (f : SchemaField) : Option Violation :=
  match es.find? f.name with
  | some v => s.fieldViolation f v
  | none => if f.mustBePresent then some (.missing f.name) else none

/-- Everything that is wrong with a value, in the order of the fields. -/
def violations (s : Schema) : Value → List Violation
  | .obj es => s.fields.filterMap (s.entryViolation es)
  | _ => [.notObject]

/-- Validates a value: reports everything that is wrong with it. -/
def validate (s : Schema) (v : Value) : Except OversizedInteger (List Violation) :=
  Violation.report (s.violations v)

/-- Nothing is wrong with the value. -/
def isValid (s : Schema) (v : Value) : Bool := (s.violations v).isEmpty

theorem violations_of_isValid {s : Schema} {v : Value} (h : s.isValid v = true) :
    s.violations v = [] := List.isEmpty_iff.mp h

theorem violations_ne_nil_of_isValid {s : Schema} {v : Value} (h : s.isValid v = false) :
    s.violations v ≠ [] := List.isEmpty_eq_false_iff.mp h

theorem validate_eq_ok_iff {s : Schema} {v : Value} {es : List Violation} : s.validate v = .ok es
    ↔ (∀ e ∈ s.violations v, e.isSayable = true) ∧ s.violations v = es :=
  Violation.report_eq_ok_iff

theorem validate_eq_error_iff {s : Schema} {v : Value} :
    s.validate v = .error .mk ↔ ∃ e ∈ s.violations v, e.isSayable = false :=
  Violation.report_eq_error_iff

/-- About a valid value there is nothing to say. -/
theorem validate_of_isValid {s : Schema} {v : Value} (h : s.isValid v = true) :
    s.validate v = .ok [] := by
  have hnone : s.violations v = [] := violations_of_isValid h
  exact validate_eq_ok_iff.mpr ⟨by simp [hnone], hnone⟩

/-- An object is valid exactly if no field is at fault. -/
theorem isValid_obj_iff {s : Schema} {es : Entries Value} :
    s.isValid (.obj es) = true ↔ ∀ f ∈ s.fields, s.entryViolation es f = none := by
  simp [isValid, violations, List.filterMap_eq_nil_iff]

/-- The predicate of the field is put to the value that an object has for it. -/
def consults (s : Schema) (es : Entries Value) (f : SchemaField) : Bool :=
  match es.find? f.name with
  | some v => f.predicate.isSome && s.fitField f v == .fits
  | none => false

/-- The fields whose predicates are put to a value of theirs, in order. -/
def consulted (s : Schema) : Value → List String
  | .obj es => (s.fields.filter (s.consults es)).map SchemaField.name
  | _ => []

end Schema

end TypedPrompt
