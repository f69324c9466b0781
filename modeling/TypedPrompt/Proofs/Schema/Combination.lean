/-
# `Proofs.Schema.Combination` — the values of types that are put together

`unionOf` and `interOf` flatten, leave out what adds nothing, keep one of several types
that are the same, and collapse where little is left.  None of this changes the values:
a value is of the union of some types exactly if it is of one of them
(`contains_unionOf_iff`), and of their intersection exactly if it is of all of them
(`contains_interOf_iff`).  Neither needs the types to be in normal form.  Flattening and
collapsing are what unions and intersections mean; `never` has no values and `any` has
all; types that are the same have the same values (`contains_of_same`).

For the test this holds as far as it gives answers (`fit_combined`): the type that is put
together may be higher than its members, or lower, so that the room may give out on one
side only.
-/
import TypedPrompt.Proofs.Schema.Membership
import TypedPrompt.Proofs.Ty.Bounds

namespace TypedPrompt.Ty

/-! ## Types that are the same -/

theorem any_name_of_sameFields {fs gs : List (Field Ty)} (h : sameFields fs gs = true)
    (key : String) : fs.any (fun f => f.name == key) = gs.any fun g => g.name == key := by
  have hshape := forall₂_of_sameFields h
  clear h
  induction hshape with
  | nil => rfl
  | cons hr _ ih =>
      obtain ⟨name, isOptional, description, -⟩ := hr
      simp only [List.any_cons, ih]

theorem declaresAll_of_sameFields {fs gs : List (Field Ty)} (h : sameFields fs gs = true)
    (es : Entries Value) : declaresAll fs es = declaresAll gs es := by
  unfold declaresAll
  exact congrArg es.all (funext fun entry => any_name_of_sameFields h entry.1)

mutual

/-- Types that are the same have the same values. -/
theorem contains_of_same : ∀ (t u : Ty) {v : Value}, same t u = true → Contains t v → Contains u v
  | primitive p, u, v, h, hv => by
      cases u <;> simp only [same, Bool.false_eq_true] at h
      exact (beq_iff_eq.mp h) ▸ hv
  | any, u, v, h, hv => by
      cases u <;> simp only [same, Bool.false_eq_true] at h
      exact hv
  | dynamic, u, v, h, hv => by
      cases u <;> simp only [same, Bool.false_eq_true] at h
      exact hv
  | never, _, v, _, hv | function _ _, _, v, _, hv | prompt _ _ _ _, _, v, _, hv => hv.elim
  | dynamicOf c, u, v, h, hv => by
      cases u <;> simp only [same, Bool.false_eq_true] at h
      next d => exact contains_of_same c d h hv
  | list e _ _, u, v, h, hv => by
      cases u <;> simp only [same, Bool.false_eq_true, Bool.and_eq_true, beq_iff_eq] at h
      obtain ⟨⟨he, rfl⟩, rfl⟩ := h
      obtain ⟨items, rfl, hbounds, hitems⟩ := hv
      exact ⟨items, rfl, hbounds, fun x hx => contains_of_same e _ he (hitems x hx)⟩
  | record fs _, u, v, h, hv => by
      cases u <;> simp only [same, Bool.false_eq_true, Bool.and_eq_true, beq_iff_eq] at h
      obtain ⟨hfs, rfl⟩ := h
      obtain ⟨es, rfl, hfields, hdeclared⟩ := hv
      exact ⟨es, rfl, containsFields_of_same fs _ hfs hfields,
        declaresAll_of_sameFields hfs es ▸ hdeclared⟩
  | union ts, u, v, h, hv => by
      cases u <;> simp only [same, Bool.false_eq_true] at h
      exact containsSome_of_same ts _ h hv
  | inter ts, u, v, h, hv => by
      cases u <;> simp only [same, Bool.false_eq_true] at h
      exact containsEach_of_same ts _ h hv

theorem containsSome_of_same : ∀ (ts us : List Ty) {v : Value}, sameAll ts us = true →
    ContainsSome ts v → ContainsSome us v
  | [], _, _, _, hv => hv.elim
  | t :: ts, us, v, h, hv => by
      cases us <;> simp only [sameAll, Bool.false_eq_true, Bool.and_eq_true] at h
      exact hv.imp (contains_of_same t _ h.1) (containsSome_of_same ts _ h.2)

theorem containsEach_of_same : ∀ (ts us : List Ty) {v : Value}, sameAll ts us = true →
    ContainsEach ts v → ContainsEach us v
  | [], us, v, h, _ => by
      obtain rfl : us = [] := by simpa [sameAll] using h
      trivial
  | t :: ts, us, v, h, hv => by
      cases us <;> simp only [sameAll, Bool.false_eq_true, Bool.and_eq_true] at h
      exact ⟨contains_of_same t _ h.1 hv.1, containsEach_of_same ts _ h.2 hv.2⟩

theorem containsFields_of_same : ∀ (fs gs : List (Field Ty)) {es : Entries Value},
    sameFields fs gs = true → ContainsFields fs es → ContainsFields gs es
  | [], gs, es, h, _ => by
      obtain rfl : gs = [] := by simpa [sameFields] using h
      trivial
  | ⟨name, t, _, _⟩ :: fs, gs, es, h, hv => by
      rcases gs with _ | ⟨⟨_, u, _, _⟩, gs⟩ <;>
        simp only [sameFields, Bool.false_eq_true, Bool.and_eq_true, beq_iff_eq] at h
      obtain ⟨⟨⟨⟨rfl, ht⟩, rfl⟩, rfl⟩, hrest⟩ := h
      refine ⟨?_, containsFields_of_same fs gs hrest hv.2⟩
      have hfield := hv.1
      cases hfind : Entries.find? es name with
      | some w =>
          rw [hfind] at hfield
          exact contains_of_same t u ht hfield
      | none =>
          rw [hfind] at hfield
          exact hfield

end
/-! ## Putting types together -/

section Combined

variable {t : Ty} {ts : List Ty} {v : Value} {room : Int}

/-- What is of no member of a union is not of the union. -/
theorem not_contains_unionMembers_iff :
    (∀ u ∈ t.unionMembers, ¬ Contains u v) ↔ ¬ Contains t v := by
  cases t with
  | union us =>
      rw [contains_union, not_exists]
      exact forall_congr' fun u => not_and.symm
  | _ => exact List.forall_mem_singleton

theorem contains_interMembers_iff : (∀ u ∈ t.interMembers, Contains u v) ↔ Contains t v := by
  cases t with
  | inter us => exact contains_inter.symm
  | _ => exact List.forall_mem_singleton

theorem contains_gather_union_iff :
    Contains (gather never union ts) v ↔ ∃ u ∈ ts, Contains u v :=
  match ts with
  | [] => by simp [gather, Contains]
  | [_] => by simp [gather]
  | _ :: _ :: _ => contains_union

theorem contains_gather_inter_iff :
    Contains (gather any inter ts) v ↔ ∀ u ∈ ts, Contains u v :=
  match ts with
  | [] => by simp [gather, Contains]
  | [_] => by simp [gather]
  | _ :: _ :: _ => contains_inter

/-- A value is of the union of some types exactly if it is of one of them. -/
theorem contains_unionOf_iff : Contains (unionOf ts) v ↔ ∃ t ∈ ts, Contains t v := by
  have hnever : ∀ t : Ty, t.isNever = true → ¬ Contains t v := by
    intro t ht
    cases t <;> simp [isNever] at ht
    exact id
  have hsame : ∀ t u : Ty, same t u = true → ¬ Contains t v → ¬ Contains u v :=
    fun t u h ht hu => ht (contains_of_same u t (same_comm t u ▸ h) hu)
  -- what is left out can be told by what holds of all members, so by not being of any
  have hnone : ¬ Contains (unionOf ts) v ↔ ∀ t ∈ ts, ¬ Contains t v := by
    rw [unionOf, contains_gather_union_iff]
    simp only [not_exists, not_and]
    rw [forall_mem_eraseDups hsame, forall_mem_filter_not hnever, List.forall_mem_flatMap]
    exact forall₂_congr fun t _ => not_contains_unionMembers_iff
  rw [← not_iff_not, hnone]
  simp only [not_exists, not_and]

/-- A value is of the intersection of some types exactly if it is of all of them. -/
theorem contains_interOf_iff : Contains (interOf ts) v ↔ ∀ t ∈ ts, Contains t v := by
  have hmembers : (∀ u ∈ ts.flatMap interMembers, Contains u v) ↔ ∀ t ∈ ts, Contains t v := by
    rw [List.forall_mem_flatMap]
    exact forall₂_congr fun t _ => contains_interMembers_iff
  rw [interOf, ← hmembers]
  split
  · next hsome =>
      obtain ⟨u, hmem, hnever⟩ := List.any_eq_true.mp hsome
      obtain rfl : u = never := by
        cases u <;> simp [isNever] at hnever ⊢
      exact ⟨False.elim, fun h => h never hmem⟩
  · have hany : ∀ t : Ty, t.isAny = true → Contains t v := by
      intro t ht
      cases t <;> simp [isAny] at ht
      trivial
    have hsame : ∀ t u : Ty, same t u = true → Contains t v → Contains u v :=
      fun t u h ht => contains_of_same t u h ht
    rw [contains_gather_inter_iff, forall_mem_eraseDups hsame, forall_mem_filter_not hany]

/-- Where the room suffices, a value fits the union of some types exactly if it fits one of
them, and their intersection exactly if it fits all of them. -/
theorem fit_combined (hts : ∀ t ∈ ts, t.fit room v ≠ .tooDeep) :
    ((unionOf ts).fit room v ≠ .tooDeep →
        ((unionOf ts).fit room v = .fits ↔ ∃ t ∈ ts, t.fit room v = .fits))
      ∧ ((interOf ts).fit room v ≠ .tooDeep →
        ((interOf ts).fit room v = .fits ↔ ∀ t ∈ ts, t.fit room v = .fits)) := by
  constructor
  · intro hunion
    rw [fit_eq_fits_iff_of_ne hunion, contains_unionOf_iff]
    exact exists_congr fun t => and_congr_right fun ht => (fit_eq_fits_iff_of_ne (hts t ht)).symm
  · intro hinter
    rw [fit_eq_fits_iff_of_ne hinter, contains_interOf_iff]
    exact forall₂_congr fun t ht => (fit_eq_fits_iff_of_ne (hts t ht)).symm

/-- Types that are not in normal form: a union in a union, a union of one member, an
intersection of none, and a repetition. -/
theorem fit_combined_nested :
    let ts := [union [union [null, string], number], inter [], union [list number none none],
      union [union [null, string], number]]
    let v := Value.arr [.int 1]
    (unionOf ts).fit 3 v = .fits ∧ (∃ t ∈ ts, t.fit 3 v = .fits)
      ∧ ¬ (interOf ts).fit 3 v = .fits := by
  intro ts v
  have hheight : ∀ t ∈ ts, t.height ≤ 2 := by decide
  have hts : ∀ t ∈ ts, t.fit 3 v ≠ .tooDeep := by
    intro t ht
    have hle := hheight t ht
    exact fit_ne_tooDeep t 3 v (by omega)
  have hunion : (unionOf ts).fit 3 v ≠ .tooDeep :=
    fit_ne_tooDeep _ 3 v (Int.ofNat_le.mpr (height_unionOf_le hheight))
  have hinter : (interOf ts).fit 3 v ≠ .tooDeep :=
    fit_ne_tooDeep _ 3 v (Int.ofNat_le.mpr (height_interOf_le hheight))
  have hsome : ∃ t ∈ ts, t.fit 3 v = .fits := ⟨inter [], by simp [ts], by decide⟩
  have hnot : ¬ ∀ t ∈ ts, t.fit 3 v = .fits :=
    fun h => absurd (h (union [union [null, string], number]) (by simp [ts])) (by decide)
  exact ⟨((fit_combined hts).1 hunion).mpr hsome, hsome,
    fun h => hnot (((fit_combined hts).2 hinter).mp h)⟩

end Combined

end TypedPrompt.Ty
