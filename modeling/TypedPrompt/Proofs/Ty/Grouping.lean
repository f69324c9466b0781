/-
# `Proofs.Ty.Grouping` — how the members are grouped does not matter

To put some types together first, and the result together with the rest, comes to the
same as to put all of them together at once (`unionOf_interOf_grouped`): to the same type,
with the same members in the same order.

What is put together first has to be in normal form.  Then it gives back what was kept
of it, whatever it has become: the union or the intersection of that, the single type
that was left, or the neutral type, which is dropped again.  Only `never` among the
members of an intersection is more than that: it is not kept, but it is seen from the
outside as it is from within (`any_isNever_interOf`).
-/
import Mathlib.Data.List.Basic
import TypedPrompt.Proofs.Ty.Normalisation

namespace TypedPrompt.Ty

variable {xs ys zs ts : List Ty}

/-! ## What a type gives back that has been put together -/

/-- What has been gathered gives back all that was, if the neutral type gives nothing back. -/
theorem members_gather {members : Ty → List Ty} {p : Ty → Bool} {neutral : Ty}
    {build : List Ty → Ty} (hneutral : (members neutral).filter p = [])
    (hbuild : members (build ts) = ts) (h : ∀ t ∈ ts, members t = [t] ∧ p t = true) :
    (members (gather neutral build ts)).filter p = ts := by
  have kept : ts.filter p = ts := List.filter_eq_self.mpr fun t ht => (h t ht).2
  match ts, hbuild, h, kept with
  | [], _, _, _ => exact hneutral
  | [t], _, h, kept =>
      rw [gather, (h t (List.mem_singleton_self t)).1]
      exact kept
  | t :: u :: ts, hbuild, _, kept =>
      show (members (build (t :: u :: ts))).filter p = t :: u :: ts
      rw [hbuild]
      exact kept

theorem unionMembers_unionOf (h : ∀ t ∈ ys, t.inNormalForm = true) :
    (unionOf ys).unionMembers.filter (fun t => !t.isNever)
      = ((ys.flatMap unionMembers).filter fun t => !t.isNever).eraseDups := by
  refine members_gather rfl rfl fun u hu => ?_
  obtain ⟨⟨t, ht, htu⟩, hkept⟩ := mem_of_mem_flattened hu
  exact ⟨unionMembers_of_not_union (isUnion_unionMember (h t ht) htu), hkept⟩

theorem interOf_eq_never (hnever : (ts.flatMap interMembers).any isNever = true) :
    interOf ts = never := by
  rw [interOf]
  simp only [hnever, if_true]

theorem interOf_eq_gather (hnever : (ts.flatMap interMembers).any isNever = false) :
    interOf ts
      = gather any inter ((ts.flatMap interMembers).filter fun t => !t.isAny).eraseDups := by
  rw [interOf]
  simp only [hnever, Bool.false_eq_true, if_false]

theorem interMembers_interOf (h : ∀ t ∈ ys, t.inNormalForm = true)
    (hnever : (ys.flatMap interMembers).any isNever = false) :
    (interOf ys).interMembers.filter (fun t => !t.isAny)
      = ((ys.flatMap interMembers).filter fun t => !t.isAny).eraseDups := by
  rw [interOf_eq_gather hnever]
  refine members_gather rfl rfl fun u hu => ?_
  obtain ⟨⟨t, ht, htu⟩, hkept⟩ := mem_of_mem_flattened hu
  exact ⟨interMembers_of_not_inter (isInter_interMember (h t ht) htu), hkept⟩

/-- Whether `never` is among the members can be seen from the outside. -/
theorem any_isNever_interOf (h : ∀ t ∈ ys, t.inNormalForm = true) :
    (interOf ys).interMembers.any isNever = (ys.flatMap interMembers).any isNever := by
  cases hnever : (ys.flatMap interMembers).any isNever with
  | true =>
      rw [interOf_eq_never hnever]
      rfl
  | false =>
      refine List.any_eq_false.mpr fun u hu hn => ?_
      -- a member that is `never` is not `any`, so it is among those that were kept
      have hmem : u ∈ (interOf ys).interMembers.filter fun t => !t.isAny := by
        refine List.mem_filter.mpr ⟨hu, ?_⟩
        cases u <;> simp [isNever] at hn
        rfl
      rw [interMembers_interOf h hnever] at hmem
      obtain ⟨⟨t, ht, htu⟩, -⟩ := mem_of_mem_flattened hmem
      exact List.any_eq_false.mp hnever u (List.mem_flatMap.mpr ⟨t, ht, htu⟩) hn

/-! ## Grouping -/

/-- If a type gives back what is kept of some others, it may stand for them. -/
theorem eraseDups_grouped {members : Ty → List Ty} {p : Ty → Bool} {whole : Ty}
    (h : (members whole).filter p = ((ys.flatMap members).filter p).eraseDups) :
    (((xs ++ whole :: zs).flatMap members).filter p).eraseDups
      = (((xs ++ ys ++ zs).flatMap members).filter p).eraseDups := by
  simp only [List.flatMap_append, List.flatMap_cons, List.filter_append, h]
  rw [← List.append_assoc]
  exact Repetition.eraseDups_between _ _ _

theorem unionOf_grouped (h : ∀ t ∈ ys, t.inNormalForm = true) :
    unionOf (xs ++ unionOf ys :: zs) = unionOf (xs ++ ys ++ zs) :=
  congrArg (gather never union) (eraseDups_grouped (unionMembers_unionOf h))

theorem interOf_grouped (h : ∀ t ∈ ys, t.inNormalForm = true) :
    interOf (xs ++ interOf ys :: zs) = interOf (xs ++ ys ++ zs) := by
  have hsame : ((xs ++ interOf ys :: zs).flatMap interMembers).any isNever
      = ((xs ++ ys ++ zs).flatMap interMembers).any isNever := by
    simp only [List.flatMap_append, List.flatMap_cons, List.any_append, any_isNever_interOf h,
      Bool.or_assoc]
  cases hnever : ((xs ++ ys ++ zs).flatMap interMembers).any isNever with
  | true => rw [interOf_eq_never hnever, interOf_eq_never (hsame.trans hnever)]
  | false =>
      have hys : (ys.flatMap interMembers).any isNever = false := by
        simp only [List.flatMap_append, List.any_append, Bool.or_eq_false_iff] at hnever
        exact hnever.1.2
      rw [interOf_eq_gather hnever, interOf_eq_gather (hsame.trans hnever),
        eraseDups_grouped (interMembers_interOf h hys)]

/-- Types in normal form may be put together first: the union and the intersection are the
same types as without that, with the same members in the same order. -/
theorem unionOf_interOf_grouped (xs zs : List Ty) (h : ∀ t ∈ ys, t.inNormalForm = true) :
    unionOf (xs ++ unionOf ys :: zs) = unionOf (xs ++ ys ++ zs)
      ∧ interOf (xs ++ interOf ys :: zs) = interOf (xs ++ ys ++ zs) :=
  ⟨unionOf_grouped h, interOf_grouped h⟩

/-- A union with a repetition in it, grouped among others, and an intersection that comes to
nothing: it is `any` and is dropped. -/
theorem unionOf_interOf_grouped_nested :
    let xs := [number, union [string, null]]
    let ys := [union [null, boolean], never, null]
    let zs := [boolean, list string none none]
    unionOf (xs ++ unionOf ys :: zs)
        = union [number, string, null, boolean, list string none none]
      ∧ interOf (xs ++ interOf [any] :: zs)
        = inter [number, union [string, null], boolean, list string none none] := by
  intro xs ys zs
  have hys : ∀ t ∈ ys, t.inNormalForm = true := by
    simp only [ys, List.forall_mem_cons]
    exact ⟨by cbv, by cbv, by cbv, nofun⟩
  have hany : ∀ t ∈ [any], t.inNormalForm = true := by
    simp only [List.forall_mem_singleton]
    cbv
  have hunion := (unionOf_interOf_grouped xs zs hys).1
  have hinter := (unionOf_interOf_grouped xs zs hany).2
  refine ⟨hunion.trans ?_, hinter.trans ?_⟩
  · cbv
  · cbv

end TypedPrompt.Ty
