/-
# `Proofs.Schema.RecordView` — a schema as a record type

Whether an object is what a schema wants can be asked in two ways.  Validation goes through
the fields and lets a required field be absent if it has a default.  The record type of the
schema knows of no defaults: there a field may be absent exactly if it is not required.

Once the defaults are filled in the two come to the same (`isValid_iff_fit_toType`).  Both ask
about one field at a time, and they ask the same (`ContainsField`) but for the mark that says
whether the field may be absent.  Where the marks differ there is a default: the field is not
absent after the filling in, and the default has to be of its type.
-/
import TypedPrompt.Proofs.Schema.Correction
import TypedPrompt.Proofs.Schema.Membership

namespace TypedPrompt

/-- The field as one of a record type, with a mark that says whether it may be absent. -/
def SchemaField.asField (f : SchemaField) (isOptional : Bool) : Field Ty :=
  ⟨f.name, f.type, isOptional, f.description⟩

namespace Schema

variable {s : Schema} {es : Entries Value} {f : SchemaField}

/-- The default of each field is of the type of the field. -/
def DefaultsFit (s : Schema) : Prop :=
  ∀ f ∈ s.fields, ∀ d, f.default = some d → f.type.Contains d

/-- Room for the record type is more than the height of the type of any field; where there
is no field, it is any room at all. -/
theorem height_toType_le_iff {room : Int} : (s.toType.height : Int) ≤ room
    ↔ 0 ≤ room ∧ ∀ f ∈ s.fields, (f.type.height : Int) < room := by
  cases room with
  | negSucc n => omega
  | ofNat n => simp [toType, Ty.height, Ty.heightFields_eq, Ty.heightAll_le_iff]

/-! ## One field at a time -/

theorem contains_toType_iff : s.toType.Contains (.obj es)
    ↔ ∀ f ∈ s.fields, Ty.ContainsField (f.asField !f.isRequired) es := by
  simp [toType, Ty.Contains, Ty.containsFields_iff, SchemaField.asField]

/-- For validation a field may be absent unless it must be present. -/
theorem entryViolation_eq_none_iff (hp : f.predicate = none)
    (hroom : (f.type.height : Int) ≤ s.maxValueDepth) :
    s.entryViolation es f = none ↔ Ty.ContainsField (f.asField !f.mustBePresent) es := by
  unfold entryViolation Ty.ContainsField
  cases hfind : es.find? f.name with
  | some v =>
      simp [hfind, SchemaField.asField, fieldViolation_eq_none_iff, fitField,
        Ty.fit_eq_fits_iff hroom, SchemaField.isSatisfiedBy, hp]
  | none => simp [hfind, SchemaField.asField]

/-- Where a default is filled in the field need not be allowed to be absent. -/
theorem containsField_fillDefaults_iff (hf : f ∈ s.fields) (hd : s.DefaultsFit) :
    Ty.ContainsField (f.asField !f.isRequired) (s.fillDefaults es)
      ↔ Ty.ContainsField (f.asField !f.mustBePresent) es := by
  have hfilled : (s.fillDefaults es).find? f.name = (es.find? f.name).or f.default :=
    find?_fillDefaults hf es
  unfold Ty.ContainsField
  simp only [SchemaField.asField, hfilled]
  cases es.find? f.name with
  | some v => exact Iff.rfl
  | none =>
      cases hdefault : f.default with
      | some d => simp [SchemaField.mustBePresent, hdefault, hd f hf d hdefault]
      | none => simp [SchemaField.mustBePresent, hdefault]

/-! ## The object as a whole -/

/-- Without predicates, and with defaults that are of the types of their fields, an object is
valid exactly if it fits the record type of the schema once the defaults are filled in. -/
theorem isValid_iff_fit_toType (hp : ∀ f ∈ s.fields, f.predicate = none) (hd : s.DefaultsFit)
    (hroom : (s.toType.height : Int) ≤ s.maxValueDepth) (es : Entries Value) :
    s.isValid (.obj es) = true
      ↔ s.toType.fit s.maxValueDepth (s.withDefaults (.obj es)) = .fits := by
  rw [Ty.fit_eq_fits_iff hroom, withDefaults, contains_toType_iff, isValid_obj_iff]
  refine forall₂_congr fun f hf => ?_
  have hheight : (f.type.height : Int) < s.maxValueDepth :=
    (height_toType_le_iff.mp hroom).2 f hf
  rw [entryViolation_eq_none_iff (hp f hf) (Int.le_of_lt hheight),
    containsField_fillDefaults_iff hf hd]

/-- A required field with a default, an optional one without, and one that must be present:
an object with that one alone is of the record type after the filling in, and one that lacks
it is not. -/
theorem isValid_iff_fit_toType_person :
    let age : SchemaField := ⟨"age", .number, true, none, none, none⟩
    let tags : SchemaField := ⟨"tags", .list .string none none, true, none, none, some (.arr [])⟩
    let nick : SchemaField := ⟨"nick", .union [.string, .null], false, none, none, none⟩
    let s : Schema := ⟨"Person", [age, tags, nick], none, 2, by decide⟩
    (∀ f ∈ s.fields, f.predicate = none) ∧ s.DefaultsFit ∧ (s.toType.height : Int) ≤ s.maxValueDepth
      ∧ s.toType.fit 2 (s.withDefaults (.obj [("age", .int 41)])) = .fits
      ∧ s.toType.fit 2 (s.withDefaults (.obj [("nick", .null)])) ≠ .fits := by
  intro age tags nick s
  have hp : ∀ f ∈ s.fields, f.predicate = none := by
    intro f hf
    simp only [s, List.mem_cons, List.not_mem_nil, or_false] at hf
    rcases hf with rfl | rfl | rfl <;> rfl
  have hd : s.DefaultsFit := by
    intro f hf d hdefault
    simp only [s, List.mem_cons, List.not_mem_nil, or_false] at hf
    rcases hf with rfl | rfl | rfl <;> cases hdefault
    exact Ty.contains_of_fit (show tags.type.fit 2 (.arr []) = .fits by decide)
  have hroom : (s.toType.height : Int) ≤ s.maxValueDepth := by
    decide
  have hvalid : s.isValid (.obj [("age", .int 41)]) = true := by
    decide
  have hlacking : ¬ s.isValid (.obj [("nick", .null)]) = true := by
    decide
  exact ⟨hp, hd, hroom, (isValid_iff_fit_toType hp hd hroom _).mp hvalid,
    fun h => hlacking ((isValid_iff_fit_toType hp hd hroom _).mpr h)⟩

end Schema

end TypedPrompt
