/-
# `Proofs.Ty.Rules` — the subtype test as a set of rules

`isSubtype` is directed by the two shapes and tries its rules in order, so what a
single answer says is spread over the alternatives of a match.  `SubtypeRule`
collects them: one constructor a rule, with the tests on the components as its
premises.  `isSubtype_iff_rule` says that the test answers yes exactly when a
rule applies.  From here on no proof opens the test itself; a proof about it
takes the rules apart and puts them together again.

A rule whose place in the order matters carries what the order means: a union on
the left is not held against the members of a union on the right as a whole, and
a union or an intersection on the left is taken apart only against a *solid*
type, one that no rule for the right side applies to.
-/
import TypedPrompt.Proofs.Ty.Components
import TypedPrompt.Ty.Subtype

namespace TypedPrompt.Ty

/-- A union. -/
def isUnion : Ty → Bool
  | union _ => true
  | _ => false

/-- An intersection. -/
def isInter : Ty → Bool
  | inter _ => true
  | _ => false

/-- No rule for the right side alone applies to the type. -/
def isSolid : Ty → Bool
  | any | dynamic | dynamicOf _ | union _ | inter _ => false
  | _ => true

/-- Each field of the second list is supplied by the first field of its name, or
is optional and there is no such field. -/
def Supplies (fs gs : List (Field Ty)) : Prop :=
  ∀ g ∈ gs, match findField? fs g.name with
    | some f => f.type.isSubtype g.type = true
    | none => g.isOptional = true

/-- Each parameter of the second list has its counterpart in the first list,
which takes all of its values. -/
def Takes (ps qs : List (Param Ty)) : Prop :=
  ∀ (i : Nat) (q : Param Ty), qs[i]? = some q →
    ∃ p, ps[i]? = some p ∧ q.type.isSubtype p.type = true

/-- The rules by which one type is below another. -/
inductive SubtypeRule : Ty → Ty → Prop
  | top {s : Ty} : SubtypeRule s any
  | bottom {t : Ty} : SubtypeRule never t
  | trusted {s t : Ty} (h : s.isDynamic = true) : SubtypeRule s t
  | unchecked {s : Ty} : SubtypeRule s dynamic
  | constrained {s c : Ty} (h : s.isSubtype c = true) : SubtypeRule s (dynamicOf c)
  | unions {ss ts : List Ty} (h : ∀ s ∈ ss, ∃ t ∈ ts, s.isSubtype t = true) :
      SubtypeRule (union ss) (union ts)
  | toMember {s : Ty} {ts : List Ty} (hs : s.isUnion = false)
      (h : ∃ t ∈ ts, s.isSubtype t = true) : SubtypeRule s (union ts)
  | toEach {s : Ty} {ts : List Ty} (h : ∀ t ∈ ts, s.isSubtype t = true) :
      SubtypeRule s (inter ts)
  | ofMember {ss : List Ty} {t : Ty} (ht : t.isSolid = true)
      (h : ∃ s ∈ ss, s.isSubtype t = true) : SubtypeRule (inter ss) t
  | ofEach {ss : List Ty} {t : Ty} (ht : t.isSolid = true)
      (h : ∀ s ∈ ss, s.isSubtype t = true) : SubtypeRule (union ss) t
  | primitive (p : Primitive) : SubtypeRule (primitive p) (primitive p)
  | list {e f : Ty} {least most least' most' : Option Int} (h : e.isSubtype f = true) :
      SubtypeRule (list e least most) (list f least' most')
  | record {fs gs : List (Field Ty)} {isOpen isOpen' : Bool} (h : Supplies fs gs) :
      SubtypeRule (record fs isOpen) (record gs isOpen')
  | function {ps qs : List (Param Ty)} {r u : Ty} (hn : requiredCount ps ≤ requiredCount qs)
      (hp : Takes ps qs) (hr : r.isSubtype u = true) : SubtypeRule (function ps r) (function qs u)
  | prompt {i o j p : Ty} {model model' : Option String} {x x' : Option Binary64}
      (hi : j.isSubtype i = true) (ho : o.isSubtype p = true) :
      SubtypeRule (prompt i o model x) (prompt j p model' x')

/-! ## The tests on fields and parameters -/

theorem findField?_mem {fs : List (Field Ty)} {name : String} {f : Field Ty}
    (h : findField? fs name = some f) : f ∈ fs ∧ f.name = name :=
  ⟨List.mem_of_find?_eq_some h, by simpa using List.find?_some h⟩

theorem suppliesField_iff (fs : List (Field Ty)) (g : Field Ty) :
    suppliesField fs g = true ↔
      match findField? fs g.name with
      | some f => f.type.isSubtype g.type = true
      | none => g.isOptional = true := by
  obtain ⟨name', u, isOptional, description⟩ := g
  induction fs with
  | nil => simp [suppliesField, findField?]
  | cons f fs ih =>
      obtain ⟨name, t, _, _⟩ := f
      rw [suppliesField]
      by_cases h : name = name'
      · simp [findField?, h]
      · simpa [findField?, h] using ih

theorem suppliesFields_iff (fs gs : List (Field Ty)) :
    suppliesFields fs gs = true ↔ Supplies fs gs := by
  induction gs with
  | nil => simp [suppliesFields, Supplies]
  | cons g gs ih =>
      rw [suppliesFields, Bool.and_eq_true, suppliesField_iff, ih]
      simp only [Supplies, List.forall_mem_cons]

theorem acceptsParams_iff (ps qs : List (Param Ty)) :
    acceptsParams ps qs = true ↔ Takes ps qs := by
  induction qs generalizing ps with
  | nil => simp [acceptsParams, Takes]
  | cons q qs ih =>
      obtain ⟨name, u, isOptional⟩ := q
      cases ps with
      | nil =>
          simp only [acceptsParams, Bool.false_eq_true, false_iff]
          intro h
          obtain ⟨p, hp, -⟩ := h 0 _ rfl
          exact absurd hp (by simp)
      | cons p ps =>
          obtain ⟨name', t, isOptional'⟩ := p
          rw [acceptsParams, Bool.and_eq_true, ih]
          constructor
          · rintro ⟨h0, h⟩ i q hq
            cases i with
            | zero =>
                obtain rfl := Option.some.inj hq
                exact ⟨_, rfl, h0⟩
            | succ i => exact h i q hq
          · intro h
            refine ⟨?_, fun i q hq => h (i + 1) q hq⟩
            obtain ⟨p, hp, h0⟩ := h 0 _ rfl
            obtain rfl := Option.some.inj hp
            exact h0

/-! ## The test answers yes exactly when a rule applies -/

theorem SubtypeRule.isSubtype {s t : Ty} (h : SubtypeRule s t) : s.isSubtype t = true := by
  cases h with
  | top => simp [Ty.isSubtype]
  | bottom => cases t <;> simp [Ty.isSubtype]
  | trusted h => cases s <;> cases t <;> simp [Ty.isSubtype, isDynamic] at h ⊢
  | unchecked => cases s <;> simp [Ty.isSubtype]
  | constrained h => cases s <;> simp [Ty.isSubtype, h]
  | unions h => simpa [Ty.isSubtype, eachBelowSome_eq] using h
  | toMember hs h => cases s <;> simp [Ty.isSubtype, isUnion, belowSome_eq] at hs h ⊢ <;> exact h
  | toEach h => cases s <;> simp [Ty.isSubtype, belowEach_eq] <;> exact h
  | ofMember ht h => cases t <;> simp [Ty.isSubtype, isSolid, someBelow_eq] at ht h ⊢ <;> exact h
  | ofEach ht h => cases t <;> simp [Ty.isSubtype, isSolid, eachBelow_eq] at ht h ⊢ <;> exact h
  | primitive p => simp [Ty.isSubtype]
  | list h => simpa [Ty.isSubtype] using h
  | record h => simpa [Ty.isSubtype, suppliesFields_iff] using h
  | function hn hp hr => simp [Ty.isSubtype, acceptsParams_iff, hn, hp, hr]
  | prompt hi ho => simp [Ty.isSubtype, hi, ho]

/-- Between two shapes without a rule for the right side alone, the shapes have to
be the same, unless the left side is taken apart. -/
theorem rule_of_solid {s t : Ty} (ht : t.isSolid = true) (hd : ¬s.isDynamic = true)
    (h : s.isSubtype t = true) : SubtypeRule s t := by
  cases s with
  | dynamic => exact absurd rfl hd
  | dynamicOf c => exact absurd rfl hd
  | never => exact .bottom
  | union ss =>
      refine .ofEach ht ?_
      cases t <;> simp_all [Ty.isSubtype, isSolid, eachBelow_eq]
  | inter ss =>
      refine .ofMember ht ?_
      cases t <;> simp_all [Ty.isSubtype, isSolid, someBelow_eq]
  | any => cases t <;> simp [Ty.isSubtype, isSolid] at h ht
  | primitive p =>
      cases t <;> simp [Ty.isSubtype, isSolid] at h ht
      subst h
      exact .primitive p
  | list e least most =>
      cases t <;> simp [Ty.isSubtype, isSolid] at h ht
      exact .list h
  | record fs isOpen =>
      cases t <;> simp [Ty.isSubtype, isSolid, suppliesFields_iff] at h ht
      exact .record h
  | function ps r =>
      cases t <;> simp [Ty.isSubtype, isSolid, acceptsParams_iff] at h ht
      exact .function h.1.1 h.1.2 h.2
  | prompt i o model x =>
      cases t <;> simp [Ty.isSubtype, isSolid] at h ht
      exact .prompt h.1 h.2

theorem rule_of_isSubtype {s t : Ty} (h : s.isSubtype t = true) : SubtypeRule s t := by
  by_cases hd : s.isDynamic = true
  · exact .trusted hd
  cases t with
  | any => exact .top
  | dynamic => exact .unchecked
  | dynamicOf c =>
      cases s <;> simp only [Ty.isSubtype, isDynamic, not_true] at h hd
      case never => exact .bottom
      all_goals exact .constrained h
  | union ts =>
      cases s <;> simp only [Ty.isSubtype, isDynamic, not_true, belowSome_eq, eachBelowSome_eq,
        List.any_eq_true, List.all_eq_true] at h hd
      case never => exact .bottom
      case union ss => exact .unions h
      all_goals exact .toMember rfl h
  | inter ts =>
      cases s <;> simp only [Ty.isSubtype, isDynamic, not_true, belowEach_eq,
        List.all_eq_true] at h hd
      case never => exact .bottom
      all_goals exact .toEach h
  | _ => exact rule_of_solid rfl hd h

/-- The test answers yes exactly when a rule applies. -/
theorem isSubtype_iff_rule {s t : Ty} : s.isSubtype t = true ↔ SubtypeRule s t :=
  ⟨rule_of_isSubtype, SubtypeRule.isSubtype⟩

end TypedPrompt.Ty
