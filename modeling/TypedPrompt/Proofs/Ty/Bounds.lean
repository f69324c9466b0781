/-
# `Proofs.Ty.Bounds` — unions are least upper and intersections greatest lower bounds

`unionOf` and `interOf` change what they are given: they flatten, they leave out what
adds nothing, and of types that are the same they keep the first one.  None of this
can be seen by the subtype test:

* a union is below what all of its members are below (`union_isSubtype_iff`), and what
  is below an intersection is below all of its members (`isSubtype_inter_iff`);
* `never` is below and `any` above everything; what is below `never` is below everything
  (`isSubtype_of_below_never`), so an intersection with such a member may be replaced;
* the test does not tell types apart that are the same (`isSubtype_alike`), although
  these need not be equal: temperatures are compared as numbers.

Everywhere but in the last point, the normal form is needed for one thing only: a union
on the right has a member.
-/
import TypedPrompt.Proofs.Ty.Normalisation
import TypedPrompt.Proofs.Ty.Shapes
import TypedPrompt.Proofs.Ty.Transitivity

namespace TypedPrompt

namespace Ty

/-! ## Types that are the same -/

/-- Equal, or the same as far as equality of types can tell. -/
def Alike (t u : Ty) : Prop := t = u ∨ same t u = true

theorem Alike.refl (t : Ty) : Alike t t := .inl rfl

theorem forall₂_of_sameAll {ts us : List Ty} (h : sameAll ts us = true) :
    List.Forall₂ Alike ts us := by
  induction ts generalizing us with
  | nil => cases us <;> simp_all [sameAll]
  | cons t ts ih =>
      cases us with
      | nil => simp [sameAll] at h
      | cons u us =>
          rw [sameAll, Bool.and_eq_true] at h
          exact .cons (.inr h.1) (ih h.2)

theorem forall₂_of_sameFields {fs gs : List (Field Ty)} (h : sameFields fs gs = true) :
    List.Forall₂ (Field.Rel Alike) fs gs := by
  induction fs generalizing gs with
  | nil => cases gs <;> simp_all [sameFields]
  | cons f fs ih =>
      obtain ⟨name, t, isOptional, description⟩ := f
      cases gs with
      | nil => simp [sameFields] at h
      | cons g gs =>
          obtain ⟨name', u, isOptional', description'⟩ := g
          simp only [sameFields, Bool.and_eq_true, beq_iff_eq] at h
          obtain ⟨⟨⟨⟨rfl, ht⟩, rfl⟩, rfl⟩, hrest⟩ := h
          exact .cons (.mk name isOptional description (.inr ht)) (ih hrest)

theorem forall₂_of_sameParams {ps qs : List (Param Ty)} (h : sameParams ps qs = true) :
    List.Forall₂ (Param.Rel Alike) ps qs := by
  induction ps generalizing qs with
  | nil => cases qs <;> simp_all [sameParams]
  | cons p ps ih =>
      obtain ⟨name, t, isOptional⟩ := p
      cases qs with
      | nil => simp [sameParams] at h
      | cons q qs =>
          obtain ⟨name', u, isOptional'⟩ := q
          simp only [sameParams, Bool.and_eq_true, beq_iff_eq] at h
          obtain ⟨⟨⟨rfl, ht⟩, rfl⟩, hrest⟩ := h
          exact .cons (.mk name isOptional (.inr ht)) (ih hrest)

/-- Types that are the same have one shape. -/
theorem Alike.shape {t u : Ty} (h : Alike t u) : Shape Alike t u := by
  rcases h with rfl | h
  · exact Shape.refl Alike.refl t
  · cases t <;> cases u <;> simp only [same, Bool.and_eq_true, beq_iff_eq, reduceCtorEq] at h
    case primitive.primitive p q => exact h ▸ .primitive p
    case any.any => exact .any
    case never.never => exact .never
    case dynamic.dynamic => exact .dynamic
    case dynamicOf.dynamicOf => exact .dynamicOf (.inr h)
    case list.list => exact .list _ _ _ _ (.inr h.1.1)
    case record.record => exact .record _ _ (forall₂_of_sameFields h.1)
    case function.function => exact .function (forall₂_of_sameParams h.1) (.inr h.2)
    case union.union => exact .union (forall₂_of_sameAll h)
    case inter.inter => exact .inter (forall₂_of_sameAll h)
    case prompt.prompt => exact .prompt _ _ _ _ (.inr h.1.1.1) (.inr h.1.1.2)

/-- The test does not tell types apart that are the same. -/
theorem isSubtype_alike {s t s' t' : Ty} (hs : Alike s s') (ht : Alike t t')
    (h : s.isSubtype t = true) : s'.isSubtype t' = true :=
  isSubtype_mono (fun hR => .inr (Alike.shape hR)) hs ht h

/-! ## Below an intersection, above a union -/

theorem never_isSubtype (t : Ty) : never.isSubtype t = true := isSubtype_iff_rule.mpr .bottom

theorem isSubtype_any (s : Ty) : s.isSubtype any = true := isSubtype_iff_rule.mpr .top

/-- What is below an intersection is below all of its members. -/
theorem isSubtype_inter_iff {s : Ty} {ts : List Ty} :
    s.isSubtype (inter ts) = true ↔ ∀ t ∈ ts, s.isSubtype t = true := by
  constructor
  · intro h t ht
    cases isSubtype_iff_rule.mp h with
    | bottom => exact never_isSubtype t
    | trusted hd => exact isSubtype_iff_rule.mpr (.trusted hd)
    | toEach heach => exact heach t ht
    | ofMember hsolid | ofEach hsolid => exact absurd hsolid (by simp [isSolid])
  · exact fun h => isSubtype_iff_rule.mpr (.toEach h)

/-- A constraint has to be met. -/
theorem isSubtype_of_dynamicOf {s c : Ty} (h : s.isSubtype (dynamicOf c) = true) :
    s.isSubtype c = true := by
  cases isSubtype_iff_rule.mp h with
  | bottom => exact never_isSubtype c
  | trusted hd => exact isSubtype_iff_rule.mpr (.trusted hd)
  | constrained hc => exact hc
  | ofMember hsolid | ofEach hsolid => exact absurd hsolid (by simp [isSolid])

/-- What is no union is below a union if it is below a member. -/
theorem exists_member_above {s : Ty} {ts : List Ty} (hts : (union ts).inNormalForm = true)
    (hs : s.isUnion = false) (h : s.isSubtype (union ts) = true) :
    ∃ t ∈ ts, s.isSubtype t = true := by
  cases isSubtype_iff_rule.mp h with
  | bottom =>
      obtain ⟨t, ht⟩ := exists_member_of_normal hts
      exact ⟨t, ht, never_isSubtype t⟩
  | trusted hd =>
      obtain ⟨t, ht⟩ := exists_member_of_normal hts
      exact ⟨t, ht, isSubtype_iff_rule.mpr (.trusted hd)⟩
  | unions => exact absurd hs (by simp [isUnion])
  | toMember _ hmember => exact hmember
  | ofMember hsolid | ofEach hsolid => exact absurd hsolid (by simp [isSolid])

/-- A union is below what all of its members are below. -/
theorem union_isSubtype {us : List Ty} (hus : ∀ u ∈ us, u.isUnion = false) :
    ∀ {s : Ty}, s.inNormalForm = true → (∀ u ∈ us, u.isSubtype s = true) →
      (union us).isSubtype s = true := by
  intro s
  induction hn : sizeOf s using Nat.strongRecOn generalizing s with
  | ind n ih =>
      subst hn
      intro hs h
      have part : ∀ t ∈ s.parts, (∀ u ∈ us, u.isSubtype t = true) →
          (union us).isSubtype t = true :=
        fun t ht => ih _ (sizeOf_lt_of_mem_parts ht) rfl (everywhere_part hs ht)
      cases s with
      | any => exact isSubtype_any _
      | dynamic => exact isSubtype_iff_rule.mpr .unchecked
      | dynamicOf c =>
          have hc := part c (List.mem_singleton_self c) fun u hu => isSubtype_of_dynamicOf (h u hu)
          exact isSubtype_iff_rule.mpr (.constrained hc)
      | union ts =>
          refine isSubtype_iff_rule.mpr (.unions fun u hu => ?_)
          exact exists_member_above hs (hus u hu) (h u hu)
      | inter ts =>
          refine isSubtype_inter_iff.mpr fun t ht => part t ht fun u hu => ?_
          exact isSubtype_inter_iff.mp (h u hu) t ht
      | _ => exact isSubtype_iff_rule.mpr (.ofEach rfl h)

theorem union_isSubtype_iff {us : List Ty} {s : Ty} (hus : ∀ u ∈ us, u.isUnion = false)
    (hs : s.inNormalForm = true) :
    (union us).isSubtype s = true ↔ ∀ u ∈ us, u.isSubtype s = true :=
  ⟨fun h _ hu => le_of_union_le hu (hus _ hu) h, union_isSubtype hus hs⟩

/-! ## Below `never` -/

/-- An intersection is below everything if one of its members is. -/
theorem inter_isSubtype_of_member {ss : List Ty} {s : Ty} (hs : s ∈ ss)
    (h : ∀ t : Ty, t.inNormalForm = true → s.isSubtype t = true) :
    ∀ {t : Ty}, t.inNormalForm = true → (inter ss).isSubtype t = true := by
  intro t
  induction hn : sizeOf t using Nat.strongRecOn generalizing t with
  | ind n ih =>
      subst hn
      intro ht
      have part : ∀ u ∈ t.parts, (inter ss).isSubtype u = true :=
        fun u hu => ih _ (sizeOf_lt_of_mem_parts hu) rfl (everywhere_part ht hu)
      refine isSubtype_iff_rule.mpr ?_
      cases t with
      | any => exact .top
      | dynamic => exact .unchecked
      | dynamicOf c => exact .constrained (part c (List.mem_singleton_self c))
      | union ts =>
          obtain ⟨t, hmem⟩ := exists_member_of_normal ht
          exact .toMember rfl ⟨t, hmem, part t hmem⟩
      | inter ts => exact .toEach part
      | _ => exact .ofMember rfl ⟨s, hs, h _ ht⟩

/-- What is below `never` is below everything. -/
theorem isSubtype_of_below_never :
    ∀ {s t : Ty}, s.inNormalForm = true → t.inNormalForm = true → s.isSubtype never = true →
      s.isSubtype t = true := by
  intro s
  induction hn : sizeOf s using Nat.strongRecOn generalizing s with
  | ind n ih =>
      subst hn
      intro t hs ht h
      have part : ∀ u ∈ s.parts, u.isSubtype never = true →
          ∀ t : Ty, t.inNormalForm = true → u.isSubtype t = true :=
        fun u hu hnever t ht =>
          ih _ (sizeOf_lt_of_mem_parts hu) rfl (everywhere_part hs hu) ht hnever
      cases isSubtype_iff_rule.mp h with
      | bottom => exact never_isSubtype t
      | trusted hd => exact isSubtype_iff_rule.mpr (.trusted hd)
      | ofMember _ hmember =>
          obtain ⟨u, hu, hnever⟩ := hmember
          exact inter_isSubtype_of_member hu (part u hu hnever) ht
      | ofEach _ heach =>
          have hunion := fun u hu => (member_union_of_normal hs (t := u) hu).1
          exact union_isSubtype hunion ht fun u hu => part u hu (heach u hu) t ht

/-! ## Members that are left out -/

section Members

variable {p : Ty → Prop} {ts : List Ty}

/-- What holds of types that are the same alike holds of all types in a list if it holds of
those that are left without repetitions. -/
theorem forall_mem_eraseDups (hp : ∀ t u : Ty, same t u = true → p t → p u) :
    (∀ t ∈ ts.eraseDups, p t) ↔ ∀ t ∈ ts, p t := by
  refine ⟨?_, fun h t ht => h t (mem_of_mem_eraseDups ht)⟩
  induction ts using Repetition.behind with
  | nil => exact fun _ => nofun
  | cons u ts ih =>
      intro h
      rw [List.eraseDups_cons, List.forall_mem_cons] at h
      refine List.forall_mem_cons.mpr ⟨h.1, fun t ht => ?_⟩
      by_cases hsame : (t == u) = true
      · have hcomm : same u t = true := same_comm t u ▸ hsame
        exact hp u t hcomm h.1
      · exact ih h.2 t (List.mem_filter.mpr ⟨ht, by simpa using hsame⟩)

/-- What holds of the types that are left out holds of all if it holds of the rest. -/
theorem forall_mem_filter_not {q : Ty → Bool} (hq : ∀ t, q t = true → p t) :
    (∀ t ∈ ts.filter fun t => !q t, p t) ↔ ∀ t ∈ ts, p t := by
  refine ⟨fun h t ht => ?_, fun h t ht => h t (List.mem_filter.mp ht).1⟩
  by_cases hqt : q t = true
  · exact hq t hqt
  · exact h t (List.mem_filter.mpr ⟨ht, by simpa using hqt⟩)

end Members

/-! ## The bounds -/

section Bounds

variable {s t : Ty} {ts : List Ty}

theorem unionMembers_isSubtype_iff (ht : t.inNormalForm = true) (hs : s.inNormalForm = true) :
    (∀ u ∈ t.unionMembers, u.isSubtype s = true) ↔ t.isSubtype s = true := by
  cases t with
  | union us =>
      have hus := fun u hu => (member_union_of_normal ht (t := u) hu).1
      exact (union_isSubtype_iff hus hs).symm
  | _ => exact List.forall_mem_singleton

theorem isSubtype_interMembers_iff :
    (∀ u ∈ t.interMembers, s.isSubtype u = true) ↔ s.isSubtype t = true := by
  cases t with
  | inter us => exact isSubtype_inter_iff.symm
  | _ => exact List.forall_mem_singleton

theorem gather_isSubtype_iff (hus : ∀ u ∈ ts, u.isUnion = false) (hs : s.inNormalForm = true) :
    (gather never union ts).isSubtype s = true ↔ ∀ u ∈ ts, u.isSubtype s = true :=
  match ts with
  | [] => by simp [gather, never_isSubtype]
  | [_] => by simp [gather]
  | _ :: _ :: _ => union_isSubtype_iff hus hs

theorem isSubtype_gather_iff :
    s.isSubtype (gather any inter ts) = true ↔ ∀ u ∈ ts, s.isSubtype u = true :=
  match ts with
  | [] => by simp [gather, isSubtype_any]
  | [_] => by simp [gather]
  | _ :: _ :: _ => isSubtype_inter_iff

/-- A union is below exactly what all of the types are below that it is made of. -/
theorem unionOf_isSubtype_iff (hts : ∀ t ∈ ts, t.inNormalForm = true)
    (hs : s.inNormalForm = true) :
    (unionOf ts).isSubtype s = true ↔ ∀ t ∈ ts, t.isSubtype s = true := by
  have hunion : ∀ u ∈ ((ts.flatMap unionMembers).filter fun t => !t.isNever).eraseDups,
      u.isUnion = false := by
    intro u hu
    obtain ⟨⟨t, ht, htu⟩, -⟩ := mem_of_mem_flattened hu
    exact isUnion_unionMember (hts t ht) htu
  have hnever : ∀ t : Ty, t.isNever = true → t.isSubtype s = true := by
    intro t ht
    cases t <;> simp [isNever] at ht
    exact never_isSubtype s
  have hsame : ∀ t u : Ty, same t u = true → t.isSubtype s = true → u.isSubtype s = true :=
    fun t u h => isSubtype_alike (.inr h) (Alike.refl s)
  rw [unionOf, gather_isSubtype_iff hunion hs, forall_mem_eraseDups hsame,
    forall_mem_filter_not hnever, List.forall_mem_flatMap]
  exact forall₂_congr fun t ht => unionMembers_isSubtype_iff (hts t ht) hs

/-- Below an intersection is exactly what is below all of the types that it is made of. -/
theorem isSubtype_interOf_iff (hts : ∀ t ∈ ts, t.inNormalForm = true)
    (hs : s.inNormalForm = true) :
    s.isSubtype (interOf ts) = true ↔ ∀ t ∈ ts, s.isSubtype t = true := by
  have hmembers : (∀ u ∈ ts.flatMap interMembers, s.isSubtype u = true)
      ↔ ∀ t ∈ ts, s.isSubtype t = true := by
    rw [List.forall_mem_flatMap]
    exact forall₂_congr fun t _ => isSubtype_interMembers_iff
  rw [interOf, ← hmembers]
  split
  · next hsome =>
      obtain ⟨never?, hmem, hnever⟩ := List.any_eq_true.mp hsome
      obtain rfl : never? = never := by
        cases never? <;> simp [isNever] at hnever ⊢
      refine ⟨fun h u hu => ?_, fun h => h never hmem⟩
      obtain ⟨t, ht, htu⟩ := List.mem_flatMap.mp hu
      exact isSubtype_of_below_never hs (everywhere_interMember (hts t ht) htu) h
  · have hany : ∀ t : Ty, t.isAny = true → s.isSubtype t = true := by
      intro t ht
      cases t <;> simp [isAny] at ht
      exact isSubtype_any s
    have hsame : ∀ t u : Ty, same t u = true → s.isSubtype t = true → s.isSubtype u = true :=
      fun t u h => isSubtype_alike (Alike.refl s) (.inr h)
    rw [isSubtype_gather_iff, forall_mem_eraseDups hsame, forall_mem_filter_not hany]

/-- The union of types in normal form is their least upper bound and the intersection their
greatest lower bound, as far as types in normal form are held against them. -/
theorem isSubtype_bounds (hts : ∀ t ∈ ts, t.inNormalForm = true) (hs : s.inNormalForm = true) :
    ((unionOf ts).isSubtype s = true ↔ ∀ t ∈ ts, t.isSubtype s = true)
      ∧ (s.isSubtype (interOf ts) = true ↔ ∀ t ∈ ts, s.isSubtype t = true) :=
  ⟨unionOf_isSubtype_iff hts hs, isSubtype_interOf_iff hts hs⟩

/-- Four types, with `never`, a union and a repetition among them, are all below an
intersection, and so is their union; but it is not below their intersection. -/
theorem isSubtype_bounds_nested :
    let ts := [union [string, null], never, dynamicOf number, string]
    let s := inter [union [string, number, null], union [null, string]]
    (unionOf ts).isSubtype s = true ∧ ¬ s.isSubtype (interOf ts) = true := by
  intro ts s
  have hts : ∀ t ∈ ts, t.inNormalForm = true := by
    simp only [ts, List.forall_mem_cons]
    exact ⟨by cbv, by cbv, by cbv, by cbv, nofun⟩
  have hs : s.inNormalForm = true := by
    cbv
  have hbelow : ∀ t ∈ ts, t.isSubtype s = true := by
    simp [ts, s, isSubtype, belowEach_eq, belowSome_eq, eachBelowSome_eq]
  have hnot : ¬ s.isSubtype string = true := by
    simp [s, isSubtype, someBelow_eq, eachBelow_eq]
  exact ⟨(isSubtype_bounds hts hs).1.mpr hbelow,
    fun h => hnot ((isSubtype_bounds hts hs).2.mp h string (by simp [ts]))⟩

end Bounds

end Ty

end TypedPrompt
