/-
# `Proofs.Ty.Reflexivity` — which types are below themselves

A type that is read is below itself unless an intersection in it has a union among
its members.  The rules for the right side come first: the intersection as a whole
is held against the members of the union one by one, and by then it is too late to
take the union from the left side, where it stands as well.  So `(A | B) & C` need
not be below `A | B`, and not below itself either (`read_not_isSubtype_self`).

The other members of an intersection do no harm.  A solid one is found on the left
when it is asked for on the right.  A dynamic one on the left is below everything
that the right side may be taken apart into, since no union in normal form is empty
(`inter_isSubtype_of_dynamic`); that serves a constraint of the dynamic type, which
is held against the whole intersection and not against its own member.

The whole library is imported for the examples, which `cbv` runs by the equations of core
functions that it finds there.
-/
import Mathlib
import TypedPrompt.Proofs.Reading.WrittenTypes
import TypedPrompt.Proofs.Ty.Bounds

namespace TypedPrompt.Ty

/-- No member of an intersection is a union. -/
def isUnionFreeNode : Ty → Bool
  | inter ts => ts.all fun t => !t.isUnion
  | _ => true

/-- No intersection in the type has a union among its members. -/
def intersectsNoUnion (t : Ty) : Bool := t.everywhere isUnionFreeNode

/-! ## Records and functions -/

theorem findField?_of_mem {fs : List (Field Ty)} (hn : (fs.map Field.name).Nodup) {f : Field Ty}
    (hf : f ∈ fs) : findField? fs f.name = some f := by
  induction fs with
  | nil => exact absurd hf List.not_mem_nil
  | cons g fs ih =>
      simp only [List.map_cons, List.nodup_cons] at hn
      rcases List.mem_cons.mp hf with rfl | hf
      · simp [findField?]
      · have hne : g.name ≠ f.name := fun he => hn.1 (he ▸ List.mem_map_of_mem hf)
        simpa [findField?, hne] using ih hn.2 hf

theorem supplies_refl {fs : List (Field Ty)} (hn : (fs.map Field.name).Nodup)
    (h : ∀ f ∈ fs, f.type.isSubtype f.type = true) : Supplies fs fs := by
  intro f hf
  rw [findField?_of_mem hn hf]
  exact h f hf

theorem takes_refl {ps : List (Param Ty)} (h : ∀ p ∈ ps, p.type.isSubtype p.type = true) :
    Takes ps ps :=
  fun _ p hp => ⟨p, hp, h p (List.mem_of_getElem? hp)⟩

/-! ## Intersections -/

/-- An intersection with a dynamic member is below every type in normal form. -/
theorem inter_isSubtype_of_dynamic {ss : List Ty} {d : Ty} (hd : d ∈ ss)
    (hdyn : d.isDynamic = true) {t : Ty} (ht : t.inNormalForm = true) :
    (inter ss).isSubtype t = true :=
  inter_isSubtype_of_member hd (fun _ _ => isSubtype_iff_rule.mpr (.trusted hdyn)) ht

/-- An intersection is below a member of its own that is no union and is below itself. -/
theorem inter_isSubtype_member {ts : List Ty} {t : Ty} (hn : (inter ts).inNormalForm = true)
    (ht : t ∈ ts) (hu : t.isUnion = false) (h : t.isSubtype t = true) :
    (inter ts).isSubtype t = true := by
  have hi : t.isInter = false := (member_inter_of_normal hn ht).1
  refine isSubtype_iff_rule.mpr ?_
  cases t with
  | any => exact .top
  | dynamic => exact .unchecked
  | dynamicOf c =>
      have hc : c.inNormalForm = true :=
        everywhere_part (everywhere_part hn ht) (List.mem_singleton_self c)
      exact .constrained (inter_isSubtype_of_dynamic ht rfl hc)
  | union us => exact absurd hu (by simp [isUnion])
  | inter us => exact absurd hi (by simp [isInter])
  | _ => exact .ofMember rfl ⟨_, ht, h⟩

/-! ## Reflexivity -/

theorem isSubtype_refl : ∀ {t : Ty}, t.inNormalForm = true → t.namesFieldsOnce = true →
    t.intersectsNoUnion = true → t.isSubtype t = true := by
  intro t
  induction hn : sizeOf t using Nat.strongRecOn generalizing t with
  | ind n ih =>
      subst hn
      intro hnormal hnames hunions
      have part : ∀ u ∈ t.parts, u.isSubtype u = true := fun u hu =>
        ih _ (sizeOf_lt_of_mem_parts hu) rfl (everywhere_part hnormal hu)
          (everywhere_part hnames hu) (everywhere_part hunions hu)
      refine isSubtype_iff_rule.mpr ?_
      cases t with
      | primitive p => exact .primitive p
      | any => exact .top
      | never => exact .bottom
      | dynamic | dynamicOf c => exact .trusted rfl
      | list e _ _ => exact .list (part e (List.mem_singleton_self e))
      | record fs _ =>
          have hd : (fs.map Field.name).Nodup := nodup_of_namesFieldsOnce hnames
          exact .record (supplies_refl hd fun f hf => part f.type (List.mem_map_of_mem hf))
      | function ps r =>
          refine .function (Nat.le_refl _) (takes_refl fun p hp => ?_) (part r (by simp [parts]))
          exact part p.type (List.mem_append_left _ (List.mem_map_of_mem hp))
      | union ts => exact .unions fun t ht => ⟨t, ht, part t ht⟩
      | inter ts =>
          refine .toEach fun t ht => ?_
          have hu := everywhere_here hunions
          simp only [isUnionFreeNode, List.all_eq_true, Bool.not_eq_true'] at hu
          exact inter_isSubtype_member hnormal ht (hu t ht) (part t ht)
      | prompt i o _ _ => exact .prompt (part i (by simp [parts])) (part o (by simp [parts]))

/-- A type that is read is below itself, if no intersection in it has a union among
its members. -/
theorem isSubtype_self_of_read {maxNesting : Int} {source : String} {t : Ty}
    (h : read maxNesting source = .ok t) (hu : t.intersectsNoUnion = true) :
    t.isSubtype t = true :=
  isSubtype_refl (inNormalForm_of_read h) (namesFieldsOnce_of_read h) hu

/-- A function over an intersection with a constrained dynamic member. -/
theorem isSubtype_self_of_read_function :
    ∃ t, read 8 "(x?: dynamic[string | null] & list[number]) -> string" = .ok t ∧
      t.intersectsNoUnion = true ∧ t.isSubtype t = true := by
  have h : read 8 "(x?: dynamic[string | null] & list[number]) -> string"
      = .ok (function [⟨"x", inter [dynamicOf (union [string, null]), list number none none],
          true⟩] string) := by
    cbv
  exact ⟨_, h, rfl, isSubtype_self_of_read h rfl⟩

/-- An intersection with a union among its members need not be below itself. -/
theorem read_not_isSubtype_self :
    ∃ t, read 8 "(string | number) & boolean" = .ok t ∧ t.isSubtype t = false := by
  have h : read 8 "(string | number) & boolean"
      = .ok (inter [union [string, number], boolean]) := by
    cbv
  refine ⟨_, h, ?_⟩
  simp [isSubtype, belowEach_eq, belowSome_eq, someBelow_eq, eachBelow_eq]

end TypedPrompt.Ty
