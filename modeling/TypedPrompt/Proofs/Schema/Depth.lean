/-
# `Proofs.Schema.Depth` — how deep a value may go

There are two measures of depth.  Decoding counts the arrays and objects inside one
another, and refuses an object that has more than one level beyond the limit
(`isTooDeep_obj_iff`).  Validation counts the steps that it takes into the type of a
field.  Through lists and records both count the same: each step goes into the value as
well.  But a step into a union, an intersection or a constraint stays where it is in the
value.

`sidesteps` is how many steps of that kind there are on one way into a type.  A field is
not reported for its depth if the value is less deep than the limit by as much
(`not_fieldTooDeep_of_nesting`), and without such steps the limit is that of decoding.
With them a value within the limit may be reported (`fieldTooDeep_of_shallow`).
-/
import Mathlib.Data.List.Nodup
import TypedPrompt.Proofs.Schema.Membership
import TypedPrompt.Proofs.Value.Nesting
import TypedPrompt.Schema.Decoding

namespace TypedPrompt

/-! ## Steps that stay where they are in the value -/

namespace Ty

mutual

/-- The greatest number of steps on one way into a type that do not go into the value. -/
def sidesteps : Ty → Nat
  | primitive _ | any | never | dynamic | function _ _ | prompt _ _ _ _ => 0
  | dynamicOf c => sidesteps c + 1
  | list e _ _ => sidesteps e
  | record fs _ => sidestepsFields fs
  | union ts => sidestepsAll ts
  | inter ts => sidestepsAll ts

/-- One more than the greatest number for some types, or nothing. -/
def sidestepsAll : List Ty → Nat
  | [] => 0
  | t :: ts => max (sidesteps t + 1) (sidestepsAll ts)

/-- The greatest number for the types of some fields. -/
def sidestepsFields : List (Field Ty) → Nat
  | [] => 0
  | ⟨_, t, _, _⟩ :: fs => max (sidesteps t) (sidestepsFields fs)

end

mutual

/-- With room for the levels of the value and for the steps beside them there is an answer. -/
theorem fit_ne_tooDeep_of_nesting : ∀ (t : Ty) {room : Int} {v : Value},
    (v.nesting : Int) + t.sidesteps ≤ room → fit room t v ≠ .tooDeep := by
  intro t room v h
  have hroom : ¬ room < 0 := by omega
  rw [fit.eq_def, if_neg hroom]
  cases t with
  | primitive p => exact Fit.ofBool_ne_tooDeep _
  | any | dynamic | never | function | prompt => simp
  | dynamicOf c =>
      simp only [sidesteps] at h
      exact fit_ne_tooDeep_of_nesting c (by omega)
  | list e least most =>
      cases v with
      | arr items =>
          refine Fit.both_ne_tooDeep (Fit.ofBool_ne_tooDeep _) (Fit.all_ne_tooDeep ?_)
          intro f hf
          obtain ⟨x, hx, rfl⟩ := List.mem_map.mp hf
          have hle := Value.nesting_le_of_mem_items hx
          simp only [Value.nesting, sidesteps] at h
          exact fit_ne_tooDeep_of_nesting e (by omega)
      | _ => simp
  | union ts => exact fitSome_ne_tooDeep_of_nesting ts (by simp only [sidesteps] at h; omega)
  | inter ts => exact fitEach_ne_tooDeep_of_nesting ts (by simp only [sidesteps] at h; omega)
  | record fs isOpen =>
      cases v with
      | obj es =>
          refine Fit.both_ne_tooDeep ?_ (Fit.ofBool_ne_tooDeep _)
          simp only [Value.nesting, sidesteps] at h
          exact fitFields_ne_tooDeep_of_nesting fs (by omega)
      | _ => simp

theorem fitSome_ne_tooDeep_of_nesting : ∀ (ts : List Ty) {room : Int} {v : Value},
    (v.nesting : Int) + sidestepsAll ts ≤ room + 1 → fitSome room ts v ≠ .tooDeep
  | [], _, _, _ => by simp [fitSome]
  | t :: ts, room, v, h => by
      simp only [sidestepsAll] at h
      exact Fit.either_ne_tooDeep (fit_ne_tooDeep_of_nesting t (by omega))
        (fitSome_ne_tooDeep_of_nesting ts (by omega))

theorem fitEach_ne_tooDeep_of_nesting : ∀ (ts : List Ty) {room : Int} {v : Value},
    (v.nesting : Int) + sidestepsAll ts ≤ room + 1 → fitEach room ts v ≠ .tooDeep
  | [], _, _, _ => by simp [fitEach]
  | t :: ts, room, v, h => by
      simp only [sidestepsAll] at h
      exact Fit.both_ne_tooDeep (fit_ne_tooDeep_of_nesting t (by omega))
        (fitEach_ne_tooDeep_of_nesting ts (by omega))

theorem fitFields_ne_tooDeep_of_nesting : ∀ (fs : List (Field Ty)) {room : Int}
    {es : Entries Value}, (Value.nestingEntries es : Int) + sidestepsFields fs ≤ room →
      fitFields room fs es ≠ .tooDeep
  | [], _, _, _ => by simp [fitFields]
  | ⟨name, t, isOptional, _⟩ :: fs, room, es, h => by
      simp only [sidestepsFields] at h
      refine Fit.both_ne_tooDeep ?_ (fitFields_ne_tooDeep_of_nesting fs (by omega))
      cases hfind : Entries.find? es name with
      | some v =>
          have hle := Value.nesting_le_of_find? hfind
          exact fit_ne_tooDeep_of_nesting t (by omega)
      | none => exact Fit.ofBool_ne_tooDeep isOptional

end

end Ty

/-! ## Fields that are reported for their depth -/

namespace Schema

variable {s : Schema} {es : Entries Value} {f : SchemaField} {v : Value}

/-- An object is refused for its depth exactly if it has more levels than one beyond the limit. -/
theorem isTooDeep_obj_iff : s.isTooDeep (.obj es) = false
    ↔ ((Value.obj es).nesting : Int) ≤ s.maxValueDepth + 1 := by
  rw [isTooDeep, Value.nestedDeeperThan_eq_false_iff]
  simp [Value.nesting]

/-- A field is reported for its depth exactly if the room gives out at its value. -/
theorem entryViolation_eq_fieldTooDeep_iff {name : String} {limit : Int} :
    s.entryViolation es f = some (.fieldTooDeep name limit)
      ↔ f.name = name ∧ s.maxValueDepth = limit
        ∧ ∃ v, es.find? f.name = some v ∧ s.fitField f v = .tooDeep := by
  cases hfind : es.find? f.name with
  | none => cases hpresent : f.mustBePresent <;> simp [entryViolation, hfind, hpresent]
  | some v =>
      cases hfit : s.fitField f v with
      | tooDeep => simp [entryViolation, hfind, fieldViolation, hfit]
      | differs => simp [entryViolation, hfind, fieldViolation, hfit]
      | fits =>
          cases hsatisfied : f.isSatisfiedBy v <;>
            simp [entryViolation, hfind, fieldViolation, hfit, hsatisfied]

/-- No field is reported for its depth if the levels of the object leave as much of the limit
as there are steps into the type of the field that stay where they are in the value. -/
theorem not_fieldTooDeep_of_nesting (hf : f ∈ s.fields)
    (h : ((Value.obj es).nesting : Int) + f.type.sidesteps ≤ s.maxValueDepth + 1) (limit : Int) :
    .fieldTooDeep f.name limit ∉ s.violations (.obj es) := by
  intro hmem
  obtain ⟨g, hg, hviolation⟩ := List.mem_filterMap.mp hmem
  obtain ⟨hname, -, v, hfind, hdeep⟩ := entryViolation_eq_fieldTooDeep_iff.mp hviolation
  obtain rfl : g = f := List.inj_on_of_nodup_map s.distinct hg hf hname
  have hle : v.nesting ≤ Value.nestingEntries es := Value.nesting_le_of_find? hfind
  rw [Value.nesting] at h
  exact Ty.fit_ne_tooDeep_of_nesting g.type (by omega) hdeep

/-- A list of records with an optional number: three levels and one step beside them, with
nothing left over. -/
theorem not_fieldTooDeep_of_nesting_rows :
    let row := Ty.record [⟨"x", .union [.number, .null], false, none⟩] true
    let rows : SchemaField := ⟨"rows", .list row none none, true, none, none, none⟩
    let s : Schema := ⟨"Table", [rows], none, 3, by decide⟩
    let es : Entries Value := [("rows", .arr [.obj [("x", .int 1)], .obj [("x", .null)]])]
    ((Value.obj es).nesting : Int) + rows.type.sidesteps = s.maxValueDepth + 1
      ∧ ∀ limit, .fieldTooDeep "rows" limit ∉ s.violations (.obj es) := by
  intro row rows s es
  have h : ((Value.obj es).nesting : Int) + rows.type.sidesteps = s.maxValueDepth + 1 := by
    decide
  exact ⟨h, not_fieldTooDeep_of_nesting (f := rows) (by simp [s]) (Int.le_of_eq h)⟩

/-- A list with a text in it, held against a list of optional texts, under a limit of one
level: the object is within the limit of decoding, and its only field is reported. -/
theorem fieldTooDeep_of_shallow :
    let x : SchemaField :=
      ⟨"x", .list (.union [.string, .null]) none none, true, none, none, none⟩
    let s : Schema := ⟨"S", [x], none, 1, by decide⟩
    let es : Entries Value := [("x", .arr [.str "a"])]
    ((Value.obj es).nesting : Int) = s.maxValueDepth + 1 ∧ s.isTooDeep (.obj es) = false
      ∧ s.violations (.obj es) = [.fieldTooDeep "x" 1]
      ∧ (Violation.fieldTooDeep "x" 1).message = "Value nested deeper than 1 levels" := by
  intro x s es
  exact ⟨by decide, by decide, rfl, by decide⟩

end Schema

end TypedPrompt
