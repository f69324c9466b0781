/-
# `Proofs.Ty.Shapes` — types of one shape

`Shape R t u`: the types `t` and `u` are built in the same way, and their components
are related by `R`.  What the subtype test does not look at may differ: the bounds of
a list, whether a record is open, the settings of a prompt.

If related types have one shape, or the second one is the dynamic type, then the
subtype test is monotone along `R` (`isSubtype_mono`).  The reason is the same for
every rule.  Where `dynamic` has taken the place of one of the two types, the test
answers yes without looking at the other.  Otherwise both shapes are as before, the
same rule applies, and its premises are about components, also where parameters
change sides.
-/
import TypedPrompt.Proofs.Correspondence
import TypedPrompt.Proofs.Ty.Rules

namespace TypedPrompt

/-- Two fields that differ in their types only, and there by `R`. -/
inductive Field.Rel {α β : Type} (R : α → β → Prop) : Field α → Field β → Prop
  | mk {a : α} {b : β} (name : String) (isOptional : Bool) (description : Option String)
      (h : R a b) :
      Field.Rel R ⟨name, a, isOptional, description⟩ ⟨name, b, isOptional, description⟩

/-- Two parameters that differ in their types only, and there by `R`. -/
inductive Param.Rel {α β : Type} (R : α → β → Prop) : Param α → Param β → Prop
  | mk {a : α} {b : β} (name : String) (isOptional : Bool) (h : R a b) :
      Param.Rel R ⟨name, a, isOptional⟩ ⟨name, b, isOptional⟩

namespace Ty

/-- Built in the same way, with components that are related by `R`. -/
inductive Shape (R : Ty → Ty → Prop) : Ty → Ty → Prop
  | primitive (p : Primitive) : Shape R (primitive p) (primitive p)
  | any : Shape R any any
  | never : Shape R never never
  | dynamic : Shape R dynamic dynamic
  | dynamicOf {c d : Ty} (h : R c d) : Shape R (dynamicOf c) (dynamicOf d)
  | list {e f : Ty} (least most least' most' : Option Int) (h : R e f) :
      Shape R (list e least most) (list f least' most')
  | record {fs gs : List (Field Ty)} (isOpen isOpen' : Bool)
      (h : List.Forall₂ (Field.Rel R) fs gs) : Shape R (record fs isOpen) (record gs isOpen')
  | function {ps qs : List (Param Ty)} {r u : Ty} (hp : List.Forall₂ (Param.Rel R) ps qs)
      (hr : R r u) : Shape R (function ps r) (function qs u)
  | union {ts us : List Ty} (h : List.Forall₂ R ts us) : Shape R (union ts) (union us)
  | inter {ts us : List Ty} (h : List.Forall₂ R ts us) : Shape R (inter ts) (inter us)
  | prompt {i o j p : Ty} (model model' : Option String) (x x' : Option Binary64)
      (hi : R i j) (ho : R o p) : Shape R (prompt i o model x) (prompt j p model' x')

variable {R : Ty → Ty → Prop} {t u : Ty}

/-- Every type has its own shape. -/
theorem Shape.refl (hR : ∀ t, R t t) : ∀ t : Ty, Shape R t t
  | .primitive p => .primitive p
  | .any => .any
  | .never => .never
  | .dynamic => .dynamic
  | .dynamicOf c => .dynamicOf (hR c)
  | .list e least most => .list least most least most (hR e)
  | .record _ isOpen =>
      .record isOpen isOpen (List.forall₂_same.mpr fun f _ => .mk f.name _ _ (hR f.type))
  | .function _ r => .function (List.forall₂_same.mpr fun p _ => .mk p.name _ (hR p.type)) (hR r)
  | .union _ => .union (List.forall₂_same.mpr fun t _ => hR t)
  | .inter _ => .inter (List.forall₂_same.mpr fun t _ => hR t)
  | .prompt i o model x => .prompt model model x x (hR i) (hR o)

/-! ## What a shape keeps -/

theorem Shape.isDynamic (h : Shape R t u) (ht : t.isDynamic = true) : u.isDynamic = true := by
  cases h <;> simp_all [Ty.isDynamic]

theorem Shape.isUnion (h : Shape R t u) (ht : t.isUnion = false) : u.isUnion = false := by
  cases h <;> simp_all [Ty.isUnion]

theorem Shape.isSolid (h : Shape R t u) (ht : t.isSolid = true) : u.isSolid = true := by
  cases h <;> simp_all [Ty.isSolid]

theorem requiredCount_rel {ps qs : List (Param Ty)} (h : List.Forall₂ (Param.Rel R) ps qs) :
    requiredCount ps = requiredCount qs := by
  induction h with
  | nil => rfl
  | cons hr _ ih =>
      obtain ⟨name, isOptional, h⟩ := hr
      simpa [requiredCount, List.countP_cons] using ih

theorem findField?_rel {fs gs : List (Field Ty)} (h : List.Forall₂ (Field.Rel R) fs gs)
    (name : String) : Option.Rel (Field.Rel R) (findField? fs name) (findField? gs name) := by
  induction h with
  | nil => exact .none
  | cons hr _ ih =>
      obtain ⟨key, isOptional, description, h⟩ := hr
      by_cases hk : key = name
      · simpa [findField?, hk] using Option.Rel.some (.mk name isOptional description h)
      · simpa [findField?, hk] using ih

/-! ## The subtype test is monotone -/

theorem Supplies.mono {fs gs fs' gs' : List (Field Ty)}
    (hf : List.Forall₂ (Field.Rel R) fs fs') (hg : List.Forall₂ (Field.Rel R) gs gs')
    (mono : ∀ f ∈ fs, ∀ g ∈ gs, ∀ {t u : Ty}, R f.type t → R g.type u →
      f.type.isSubtype g.type = true → t.isSubtype u = true)
    (h : Supplies fs gs) : Supplies fs' gs' := by
  intro g' hg'
  obtain ⟨g, hgm, hr⟩ := forall₂_mem_right hg hg'
  obtain ⟨name, isOptional, description, hb⟩ := hr
  have hgs := h _ hgm
  have hfind := findField?_rel hf name
  cases hf? : findField? fs name with
  | none =>
      rw [hf?] at hfind hgs
      cases hf?' : findField? fs' name with
      | none => exact hgs
      | some f' => rw [hf?'] at hfind; exact nomatch hfind
  | some f =>
      rw [hf?] at hfind hgs
      cases hf?' : findField? fs' name with
      | none => rw [hf?'] at hfind; exact nomatch hfind
      | some f' =>
          rw [hf?'] at hfind
          cases hfind with
          | some hr =>
              obtain ⟨name', isOptional', description', hb'⟩ := hr
              exact mono _ (findField?_mem hf?).1 _ hgm hb' hb hgs

theorem Takes.mono {ps qs ps' qs' : List (Param Ty)}
    (hp : List.Forall₂ (Param.Rel R) ps ps') (hq : List.Forall₂ (Param.Rel R) qs qs')
    (mono : ∀ p ∈ ps, ∀ q ∈ qs, ∀ {t u : Ty}, R p.type t → R q.type u →
      q.type.isSubtype p.type = true → u.isSubtype t = true)
    (h : Takes ps qs) : Takes ps' qs' := by
  intro i q' hqi'
  have hri := forall₂_getElem? hq i
  rw [hqi'] at hri
  cases hqi : qs[i]? with
  | none => rw [hqi] at hri; exact nomatch hri
  | some q =>
      rw [hqi] at hri
      obtain ⟨p, hpi, hsub⟩ := h i q hqi
      have hli := forall₂_getElem? hp i
      rw [hpi] at hli
      cases hpi' : ps'[i]? with
      | none => rw [hpi'] at hli; exact nomatch hli
      | some p' =>
          rw [hpi'] at hli
          refine ⟨p', rfl, ?_⟩
          cases hri with
          | some hq' =>
              cases hli with
              | some hp' =>
                  obtain ⟨name, isOptional, hb⟩ := hq'
                  obtain ⟨name', isOptional', hb'⟩ := hp'
                  exact mono _ (List.mem_of_getElem? hpi) _ (List.mem_of_getElem? hqi) hb' hb hsub

/-- A test between two types also succeeds between types that are related to them, where
these have the same shapes or are dynamic. -/
theorem isSubtype_mono (shape : ∀ {t u : Ty}, R t u → u = dynamic ∨ Shape R t u) :
    ∀ {s t s' t' : Ty}, R s s' → R t t' → s.isSubtype t = true → s'.isSubtype t' = true := by
  intro s t
  induction hn : sizeOf s + sizeOf t using Nat.strongRecOn generalizing s t with
  | ind n ih =>
      subst hn
      intro s' t' hs ht h
      have onLeft : ∀ {u u' : Ty}, u ∈ s.parts → R u u' → u.isSubtype t = true →
          u'.isSubtype t' = true := by
        intro u u' hu hb h
        have := sizeOf_lt_of_mem_parts hu
        exact ih _ (by omega) rfl hb ht h
      have onRight : ∀ {u u' : Ty}, u ∈ t.parts → R u u' → s.isSubtype u = true →
          s'.isSubtype u' = true := by
        intro u u' hu hb h
        have := sizeOf_lt_of_mem_parts hu
        exact ih _ (by omega) rfl hs hb h
      have onBoth : ∀ {u w u' w' : Ty}, u ∈ s.parts → w ∈ t.parts → R u u' → R w w' →
          u.isSubtype w = true → u'.isSubtype w' = true := by
        intro u w u' w' hu hw hb hb' h
        have := sizeOf_lt_of_mem_parts hu
        have := sizeOf_lt_of_mem_parts hw
        exact ih _ (by omega) rfl hb hb' h
      have crossed : ∀ {u w u' w' : Ty}, u ∈ s.parts → w ∈ t.parts → R u u' → R w w' →
          w.isSubtype u = true → w'.isSubtype u' = true := by
        intro u w u' w' hu hw hb hb' h
        have := sizeOf_lt_of_mem_parts hu
        have := sizeOf_lt_of_mem_parts hw
        exact ih _ (by omega) rfl hb' hb h
      refine isSubtype_iff_rule.mpr ?_
      rcases shape ht with rfl | right
      · exact .unchecked
      rcases shape hs with rfl | left
      · exact .trusted rfl
      -- from here on both shapes are as before
      cases isSubtype_iff_rule.mp h with
      | top =>
          cases right
          exact .top
      | bottom =>
          cases left
          exact .bottom
      | trusted hd => exact .trusted (left.isDynamic hd)
      | unchecked =>
          cases right
          exact .unchecked
      | constrained hc =>
          cases right with
          | dynamicOf hb => exact .constrained (onRight (by simp [parts]) hb hc)
      | unions hm =>
          cases left with
          | union hleft =>
              cases right with
              | union hright =>
                  refine .unions fun u' hu' => ?_
                  obtain ⟨u, hu, hb⟩ := forall₂_mem_right hleft hu'
                  obtain ⟨w, hw, h⟩ := hm u hu
                  obtain ⟨w', hw', hb'⟩ := forall₂_mem_left hright hw
                  exact ⟨w', hw', onBoth hu hw hb hb' h⟩
      | toMember hu hm =>
          cases right with
          | union hright =>
              obtain ⟨w, hw, h⟩ := hm
              obtain ⟨w', hw', hb⟩ := forall₂_mem_left hright hw
              exact .toMember (left.isUnion hu) ⟨w', hw', onRight hw hb h⟩
      | toEach hm =>
          cases right with
          | inter hright =>
              refine .toEach fun w' hw' => ?_
              obtain ⟨w, hw, hb⟩ := forall₂_mem_right hright hw'
              exact onRight hw hb (hm w hw)
      | ofMember hsolid hm =>
          cases left with
          | inter hleft =>
              obtain ⟨u, hu, h⟩ := hm
              obtain ⟨u', hu', hb⟩ := forall₂_mem_left hleft hu
              exact .ofMember (right.isSolid hsolid) ⟨u', hu', onLeft hu hb h⟩
      | ofEach hsolid hm =>
          cases left with
          | union hleft =>
              refine .ofEach (right.isSolid hsolid) fun u' hu' => ?_
              obtain ⟨u, hu, hb⟩ := forall₂_mem_right hleft hu'
              exact onLeft hu hb (hm u hu)
      | primitive p =>
          cases left
          cases right
          exact .primitive p
      | list he =>
          cases left with
          | list _ _ _ _ hb =>
              cases right with
              | list _ _ _ _ hb' =>
                  exact .list (onBoth (by simp [parts]) (by simp [parts]) hb hb' he)
      | record hsup =>
          cases left with
          | record _ _ hleft =>
              cases right with
              | record _ _ hright =>
                  exact .record (Supplies.mono hleft hright (fun f hf g hg => onBoth
                    (List.mem_map_of_mem hf) (List.mem_map_of_mem hg)) hsup)
      | function hn hp hr =>
          cases left with
          | function hleft hbr =>
              cases right with
              | function hright hbr' =>
                  refine .function ?_ ?_ (onBoth (by simp [parts]) (by simp [parts]) hbr hbr' hr)
                  · rwa [← requiredCount_rel hleft, ← requiredCount_rel hright]
                  · exact Takes.mono hleft hright (fun p hp q hq => crossed
                      (List.mem_append_left _ (List.mem_map_of_mem hp))
                      (List.mem_append_left _ (List.mem_map_of_mem hq))) hp
      | prompt hi ho =>
          cases left with
          | prompt _ _ _ _ hbi hbo =>
              cases right with
              | prompt _ _ _ _ hbi' hbo' =>
                  exact .prompt (crossed (by simp [parts]) (by simp [parts]) hbi hbi' hi)
                    (onBoth (by simp [parts]) (by simp [parts]) hbo hbo' ho)

end Ty

end TypedPrompt
