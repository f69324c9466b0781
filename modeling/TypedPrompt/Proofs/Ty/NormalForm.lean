/-
# `Proofs.Ty.NormalForm` — the form of types that are read

A type that is read from its written form is normal at every node: the members
of a union or an intersection are at least two, pairwise different, none of the
same kind as the whole, and none of those that add nothing (`never` in a union,
`never` and `any` in an intersection).  Its records name each field once, and no
bound of a list is below zero.  `WellFormed` has these three.

The file also names two restrictions under which the subtype test means what it says:
no dynamic component, and no optional field in a record.  `Tight` has these two,
and `Strict` has them and the normal form; both pass from a type to its parts.
-/
import TypedPrompt.Proofs.Ty.Rules

namespace TypedPrompt.Ty

/-- No two of the types are the same. -/
def distinct : List Ty → Bool
  | [] => true
  | t :: ts => ts.all (fun u => !t.same u) && distinct ts

/-- The members of a union or an intersection are as the normal form has them. -/
def isNormalNode : Ty → Bool
  | union ts => decide (2 ≤ ts.length) && ts.all (fun t => !t.isUnion && !t.isNever) && distinct ts
  | inter ts =>
      decide (2 ≤ ts.length) && ts.all (fun t => !t.isInter && !t.isNever && !t.isAny)
        && distinct ts
  | _ => true

/-- The fields of a record are all required. -/
def isRequiredNode : Ty → Bool
  | record fs _ => fs.all fun f => !f.isOptional
  | _ => true

/-- The fields of a record have names of their own. -/
def isDistinctNode : Ty → Bool
  | record fs _ => decide (fs.map Field.name).Nodup
  | _ => true

/-- The bounds of a list are not below zero. -/
def isBoundedNode : Ty → Bool
  | list _ least most => least.all (fun n => decide (0 ≤ n)) && most.all (fun n => decide (0 ≤ n))
  | _ => true

/-- Every union and every intersection in the type is in normal form. -/
def inNormalForm (t : Ty) : Bool := t.everywhere isNormalNode

/-- No component is dynamic. -/
def isStatic (t : Ty) : Bool := t.everywhere fun u => !u.isDynamic

/-- No record in the type has an optional field. -/
def requiresFields (t : Ty) : Bool := t.everywhere isRequiredNode

/-- No record in the type has two fields of one name. -/
def namesFieldsOnce (t : Ty) : Bool := t.everywhere isDistinctNode

/-- No list in the type has a bound below zero. -/
def boundsLengths (t : Ty) : Bool := t.everywhere isBoundedNode

/-- In normal form, with distinct names of fields and with bounds that a length can have. -/
structure WellFormed (t : Ty) : Prop where
  normal : t.inNormalForm = true
  fields : t.namesFieldsOnce = true
  bounds : t.boundsLengths = true

section Members

variable {t : Ty} {ts : List Ty}

theorem isNormalNode_union : isNormalNode (union ts) = true ↔
    2 ≤ ts.length ∧ (∀ t ∈ ts, t.isUnion = false ∧ t.isNever = false) ∧ distinct ts = true := by
  simp only [isNormalNode, Bool.and_eq_true, decide_eq_true_eq, List.all_eq_true,
    Bool.not_eq_true', and_assoc]

theorem isNormalNode_inter : isNormalNode (inter ts) = true ↔
    2 ≤ ts.length ∧ (∀ t ∈ ts, t.isInter = false ∧ t.isNever = false ∧ t.isAny = false) ∧
      distinct ts = true := by
  simp only [isNormalNode, Bool.and_eq_true, decide_eq_true_eq, List.all_eq_true,
    Bool.not_eq_true', and_assoc]

theorem member_union_of_normal (h : (union ts).inNormalForm = true) (ht : t ∈ ts) :
    t.isUnion = false ∧ t.isNever = false :=
  (isNormalNode_union.mp (everywhere_here h)).2.1 t ht

theorem member_inter_of_normal (h : (inter ts).inNormalForm = true) (ht : t ∈ ts) :
    t.isInter = false ∧ t.isNever = false ∧ t.isAny = false :=
  (isNormalNode_inter.mp (everywhere_here h)).2.1 t ht

theorem exists_member_of_normal (h : (union ts).inNormalForm = true) : ∃ t, t ∈ ts := by
  have hl := (isNormalNode_union.mp (everywhere_here h)).1
  exact List.exists_mem_of_length_pos (by omega)

end Members

theorem nodup_of_namesFieldsOnce {fs : List (Field Ty)} {isOpen : Bool}
    (h : (record fs isOpen).namesFieldsOnce = true) : (fs.map Field.name).Nodup := by
  simpa [isDistinctNode] using everywhere_here h

/-- Neither dynamic components nor optional fields. -/
structure Tight (t : Ty) : Prop where
  static : t.isStatic = true
  required : t.requiresFields = true

namespace Tight

variable {t u : Ty}

theorem part (h : Tight t) (hu : u ∈ t.parts) : Tight u :=
  ⟨everywhere_part h.static hu, everywhere_part h.required hu⟩

theorem not_dynamic (h : Tight t) : t.isDynamic = false := by
  simpa using everywhere_here h.static

theorem field_required {fs : List (Field Ty)} {isOpen : Bool} (h : Tight (record fs isOpen))
    {f : Field Ty} (hf : f ∈ fs) : f.isOptional = false := by
  have hr := everywhere_here h.required
  simp only [isRequiredNode, List.all_eq_true, Bool.not_eq_true'] at hr
  exact hr f hf

end Tight

/-- In normal form, without dynamic components and without optional fields. -/
structure Strict (t : Ty) : Prop extends Tight t where
  normal : t.inNormalForm = true

namespace Strict

variable {t u : Ty} {ts : List Ty}

theorem part (h : Strict t) (hu : u ∈ t.parts) : Strict u :=
  ⟨h.toTight.part hu, everywhere_part h.normal hu⟩

theorem member_union (h : Strict (union ts)) (hu : u ∈ ts) :
    u.isUnion = false ∧ u.isNever = false := member_union_of_normal h.normal hu

theorem member_inter (h : Strict (inter ts)) (hu : u ∈ ts) : u.isNever = false :=
  (member_inter_of_normal h.normal hu).2.1

theorem exists_member (h : Strict (union ts)) : ∃ u, u ∈ ts := exists_member_of_normal h.normal

end Strict

end TypedPrompt.Ty
