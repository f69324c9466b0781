/-
# `Proofs.Ty.Normalisation` — unions and intersections come out in normal form

`unionOf` and `interOf` flatten one level, drop what adds nothing and leave out
repetitions.  From members in normal form they make a type in normal form: one
level is all there is to flatten, and what is left is pairwise different.  The latter
needs the symmetry of `same`, since a repetition is sought in one direction and the
normal form asks in the other.

A question whose answer is yes at every union and every intersection stays
answered with yes everywhere, whatever it says about the other types.  The result goes
at most one step deeper than what is put together.
-/
import TypedPrompt.Proofs.Repetition
import TypedPrompt.Proofs.Ty.NormalForm
import TypedPrompt.Proofs.Ty.Sameness

namespace TypedPrompt

namespace Ty

/-! ## Leaving out repetitions -/

theorem mem_of_mem_eraseDups {t : Ty} {ts : List Ty} (h : t ∈ ts.eraseDups) : t ∈ ts := by
  induction ts using Repetition.behind with
  | nil => exact h
  | cons u ts ih =>
      rw [List.eraseDups_cons, List.mem_cons] at h
      rcases h with rfl | h
      · exact List.mem_cons_self
      · exact List.mem_cons_of_mem u (List.mem_filter.mp (ih h)).1

theorem distinct_eraseDups (ts : List Ty) : distinct ts.eraseDups = true := by
  induction ts using Repetition.behind with
  | nil => rfl
  | cons u ts ih =>
      rw [List.eraseDups_cons, distinct, Bool.and_eq_true, List.all_eq_true]
      refine ⟨fun t ht => ?_, ih⟩
      have hne := (List.mem_filter.mp (mem_of_mem_eraseDups ht)).2
      rw [same_comm]
      exact hne

/-- Where there is no repetition, nothing is left out. -/
theorem eraseDups_of_distinct {ts : List Ty} (h : distinct ts = true) : ts.eraseDups = ts := by
  induction ts with
  | nil => rfl
  | cons t ts ih =>
      rw [distinct, Bool.and_eq_true, List.all_eq_true] at h
      have hall : ts.filter (fun u => !u == t) = ts := by
        refine List.filter_eq_self.mpr fun u hu => ?_
        show (!u.same t) = true
        rw [same_comm]
        exact h.1 u hu
      rw [List.eraseDups_cons, hall, ih h.2]

/-- What is left of the members of some types is a member of one of them. -/
theorem mem_of_mem_flattened {members : Ty → List Ty} {p : Ty → Bool} {u : Ty} {ts : List Ty}
    (h : u ∈ ((ts.flatMap members).filter p).eraseDups) :
    (∃ t ∈ ts, u ∈ members t) ∧ p u = true := by
  obtain ⟨hm, hp⟩ := List.mem_filter.mp (mem_of_mem_eraseDups h)
  exact ⟨List.mem_flatMap.mp hm, hp⟩

/-! ## Putting members together -/

section Everywhere

variable {q : Ty → Bool} {t neutral : Ty} {build : List Ty → Ty} {ts : List Ty}

theorem everywhere_gather (hn : everywhere q neutral = true)
    (hm : ∀ t ∈ ts, everywhere q t = true)
    (hb : 2 ≤ ts.length → everywhere q (build ts) = true) :
    everywhere q (gather neutral build ts) = true :=
  match ts with
  | [] => hn
  | [t] => hm t (List.mem_singleton_self t)
  | _ :: _ :: _ => hb (by simp)

theorem everywhere_unionMember {u : Ty} (h : everywhere q t = true) (hu : u ∈ t.unionMembers) :
    everywhere q u = true := by
  cases t with
  | union ts => exact everywhere_part h hu
  | _ => exact List.mem_singleton.mp hu ▸ h

theorem everywhere_interMember {u : Ty} (h : everywhere q t = true) (hu : u ∈ t.interMembers) :
    everywhere q u = true := by
  cases t with
  | inter ts => exact everywhere_part h hu
  | _ => exact List.mem_singleton.mp hu ▸ h

/-- What is yes everywhere in some types is so in their union, if it is at the union. -/
theorem everywhere_unionOf (h : ∀ t ∈ ts, everywhere q t = true) (hn : q never = true)
    (hu : ∀ us, (∀ u ∈ us, (∃ t ∈ ts, u ∈ t.unionMembers) ∧ u.isNever = false) →
      2 ≤ us.length → distinct us = true → q (union us) = true) :
    everywhere q (unionOf ts) = true := by
  have member : ∀ u ∈ ((ts.flatMap unionMembers).filter fun t => !t.isNever).eraseDups,
      (∃ t ∈ ts, u ∈ t.unionMembers) ∧ u.isNever = false := by
    intro u hm
    simpa using mem_of_mem_flattened hm
  have answered : ∀ u ∈ ((ts.flatMap unionMembers).filter fun t => !t.isNever).eraseDups,
      everywhere q u = true := by
    intro u hm
    obtain ⟨⟨t, ht, htu⟩, -⟩ := member u hm
    exact everywhere_unionMember (h t ht) htu
  refine everywhere_gather hn answered fun hl => ?_
  exact everywhere_of_parts (hu _ member hl (distinct_eraseDups _)) answered

/-- What is yes everywhere in some types is so in their intersection, if it is at the
intersection. -/
theorem everywhere_interOf (h : ∀ t ∈ ts, everywhere q t = true) (hn : q never = true)
    (ha : q any = true)
    (hi : ∀ us, (∀ u ∈ us, (∃ t ∈ ts, u ∈ t.interMembers) ∧ u.isNever = false ∧ u.isAny = false) →
      2 ≤ us.length → distinct us = true → q (inter us) = true) :
    everywhere q (interOf ts) = true := by
  rw [interOf]
  split
  · exact hn
  · next hnever =>
      have member : ∀ u ∈ ((ts.flatMap interMembers).filter fun t => !t.isAny).eraseDups,
          (∃ t ∈ ts, u ∈ t.interMembers) ∧ u.isNever = false ∧ u.isAny = false := by
        intro u hm
        obtain ⟨hmember, hany⟩ := mem_of_mem_flattened hm
        refine ⟨hmember, ?_, by simpa using hany⟩
        simpa using fun h => hnever (List.any_eq_true.mpr ⟨u, List.mem_flatMap.mpr hmember, h⟩)
      have answered : ∀ u ∈ ((ts.flatMap interMembers).filter fun t => !t.isAny).eraseDups,
          everywhere q u = true := by
        intro u hm
        obtain ⟨⟨t, ht, htu⟩, -⟩ := member u hm
        exact everywhere_interMember (h t ht) htu
      refine everywhere_gather ha answered fun hl => ?_
      exact everywhere_of_parts (hi _ member hl (distinct_eraseDups _)) answered

end Everywhere

/-! ## How deep the result goes -/

section Height

variable {t neutral : Ty} {build : List Ty → Ty} {ts : List Ty} {k : Nat}

theorem height_gather_le (hn : neutral.height = 0) (hm : ∀ t ∈ ts, t.height ≤ k)
    (hb : (build ts).height ≤ k + 1) : (gather neutral build ts).height ≤ k + 1 :=
  match ts with
  | [] => by simp [gather, hn]
  | [t] => Nat.le_succ_of_le (hm t (List.mem_singleton_self t))
  | _ :: _ :: _ => hb

theorem height_unionMember_le {u : Ty} (hu : u ∈ t.unionMembers) : u.height ≤ t.height := by
  cases t with
  | union ts => exact Nat.le_of_lt (height_lt_of_mem_parts hu)
  | _ => exact Nat.le_of_eq (congrArg height (List.mem_singleton.mp hu))

theorem height_interMember_le {u : Ty} (hu : u ∈ t.interMembers) : u.height ≤ t.height := by
  cases t with
  | inter ts => exact Nat.le_of_lt (height_lt_of_mem_parts hu)
  | _ => exact Nat.le_of_eq (congrArg height (List.mem_singleton.mp hu))

theorem height_unionOf_le (h : ∀ t ∈ ts, t.height ≤ k) : (unionOf ts).height ≤ k + 1 := by
  have member : ∀ u ∈ ((ts.flatMap unionMembers).filter fun t => !t.isNever).eraseDups,
      u.height ≤ k := by
    intro u hm
    obtain ⟨⟨t, ht, htu⟩, -⟩ := mem_of_mem_flattened hm
    exact Nat.le_trans (height_unionMember_le htu) (h t ht)
  exact height_gather_le rfl member (height_le_succ_iff.mpr member)

theorem height_interOf_le (h : ∀ t ∈ ts, t.height ≤ k) : (interOf ts).height ≤ k + 1 := by
  have member : ∀ u ∈ ((ts.flatMap interMembers).filter fun t => !t.isAny).eraseDups,
      u.height ≤ k := by
    intro u hm
    obtain ⟨⟨t, ht, htu⟩, -⟩ := mem_of_mem_flattened hm
    exact Nat.le_trans (height_interMember_le htu) (h t ht)
  rw [interOf]
  split
  · exact Nat.zero_le (k + 1)
  · exact height_gather_le rfl member (height_le_succ_iff.mpr member)

end Height

/-! ## Normal forms -/

theorem isUnion_unionMember {t u : Ty} (h : t.inNormalForm = true) (hu : u ∈ t.unionMembers) :
    u.isUnion = false := by
  cases t with
  | union ts => exact (member_union_of_normal h hu).1
  | _ => rw [List.mem_singleton.mp hu]; rfl

theorem isInter_interMember {t u : Ty} (h : t.inNormalForm = true) (hu : u ∈ t.interMembers) :
    u.isInter = false := by
  cases t with
  | inter ts => exact (member_inter_of_normal h hu).1
  | _ => rw [List.mem_singleton.mp hu]; rfl

theorem unionOf_inNormalForm {ts : List Ty} (h : ∀ t ∈ ts, t.inNormalForm = true) :
    (unionOf ts).inNormalForm = true := by
  refine everywhere_unionOf h rfl fun us hus hl hd => ?_
  refine isNormalNode_union.mpr ⟨hl, fun u hu => ?_, hd⟩
  obtain ⟨⟨t, ht, htu⟩, hnever⟩ := hus u hu
  exact ⟨isUnion_unionMember (h t ht) htu, hnever⟩

theorem interOf_inNormalForm {ts : List Ty} (h : ∀ t ∈ ts, t.inNormalForm = true) :
    (interOf ts).inNormalForm = true := by
  refine everywhere_interOf h rfl rfl fun us hus hl hd => ?_
  refine isNormalNode_inter.mpr ⟨hl, fun u hu => ?_, hd⟩
  obtain ⟨⟨t, ht, htu⟩, hnever⟩ := hus u hu
  exact ⟨isInter_interMember (h t ht) htu, hnever⟩

/-! ## Types in normal form are put together from their members -/

theorem unionMembers_of_not_union {t : Ty} (h : t.isUnion = false) : t.unionMembers = [t] := by
  cases t with
  | union => cases h
  | _ => rfl

theorem interMembers_of_not_inter {t : Ty} (h : t.isInter = false) : t.interMembers = [t] := by
  cases t with
  | inter => cases h
  | _ => rfl

theorem flatMap_eq_self {members : Ty → List Ty} {ts : List Ty}
    (h : ∀ t ∈ ts, members t = [t]) : ts.flatMap members = ts := by
  induction ts with
  | nil => rfl
  | cons t ts ih =>
      rw [List.flatMap_cons, h t List.mem_cons_self,
        ih fun u hu => h u (List.mem_cons_of_mem t hu), List.singleton_append]

theorem gather_of_distinct {neutral : Ty} {build : List Ty → Ty} {ts : List Ty}
    (hlength : 2 ≤ ts.length) (hdistinct : distinct ts = true) :
    gather neutral build ts.eraseDups = build ts := by
  rw [eraseDups_of_distinct hdistinct]
  match ts, hlength with
  | _ :: _ :: _, _ => rfl

/-- A union in normal form is the union of its members. -/
theorem unionOf_of_normal {ts : List Ty} (h : isNormalNode (union ts) = true) :
    unionOf ts = union ts := by
  obtain ⟨hlength, hmember, hdistinct⟩ := isNormalNode_union.mp h
  have hflat : ts.flatMap unionMembers = ts :=
    flatMap_eq_self fun t ht => unionMembers_of_not_union (hmember t ht).1
  have hkept : ts.filter (fun t => !t.isNever) = ts :=
    List.filter_eq_self.mpr fun t ht => by simp [hmember t ht]
  rw [unionOf, hflat, hkept, gather_of_distinct hlength hdistinct]

/-- An intersection in normal form is the intersection of its members. -/
theorem interOf_of_normal {ts : List Ty} (h : isNormalNode (inter ts) = true) :
    interOf ts = inter ts := by
  obtain ⟨hlength, hmember, hdistinct⟩ := isNormalNode_inter.mp h
  have hflat : ts.flatMap interMembers = ts :=
    flatMap_eq_self fun t ht => interMembers_of_not_inter (hmember t ht).1
  have hnever : ¬ ts.any isNever = true := by
    rw [List.any_eq_true]
    rintro ⟨t, ht, hn⟩
    rw [(hmember t ht).2.1] at hn
    cases hn
  have hkept : ts.filter (fun t => !t.isAny) = ts :=
    List.filter_eq_self.mpr fun t ht => by simp [hmember t ht]
  rw [interOf, hflat]
  show (if ts.any isNever = true then never else _) = inter ts
  rw [if_neg hnever, hkept, gather_of_distinct hlength hdistinct]

end Ty

end TypedPrompt
