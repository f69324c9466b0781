/-
# `Proofs.Schema.Subtyping` — what is below a type has no other values

The subtype test and the test of values are two recursions over one vocabulary:
the first goes down in both types, the second in a type and a value.  They agree
where the subtype test says all that the second one asks.  It does not look at
the bounds of a list nor at whether a record is open, so the type above must have
neither bounds nor closed records; it lets optional fields be left out and trusts
the dynamic type, so neither may occur on either side.

Both types are `Tight`, then, and the one above is loose.  The proof follows the
rule by which the first type is below the second.
-/
import TypedPrompt.Proofs.Schema.Membership
import TypedPrompt.Proofs.Ty.NormalForm

namespace TypedPrompt.Ty

/-- A list has no bounds and a record is open. -/
def isLooseNode : Ty → Bool
  | list _ least most => least.isNone && most.isNone
  | record _ isOpen => isOpen
  | _ => true

/-- The lists in the type have no bounds, and its records are open. -/
def isLoose (t : Ty) : Bool := t.everywhere isLooseNode

theorem isLoose_part {t u : Ty} (h : t.isLoose = true) (hu : u ∈ t.parts) : u.isLoose = true :=
  everywhere_part h hu

/-- What is below a loose type has no other values. -/
theorem contains_of_isSubtype :
    ∀ {s t : Ty}, Tight s → Tight t → t.isLoose = true → s.isSubtype t = true →
      ∀ {v : Value}, Contains s v → Contains t v := by
  intro s t
  induction hn : sizeOf s + sizeOf t using Nat.strongRecOn generalizing s t with
  | ind n ih =>
      subst hn
      intro hs ht hl h v hv
      -- the induction hypothesis on the left, on the right and on both sides
      have onLeft : ∀ s' ∈ s.parts, s'.isSubtype t = true → Contains s' v → Contains t v := by
        intro s' hm h' hv'
        have := sizeOf_lt_of_mem_parts hm
        exact ih _ (by omega) rfl (hs.part hm) ht hl h' hv'
      have onRight : ∀ t' ∈ t.parts, s.isSubtype t' = true → Contains t' v := by
        intro t' hm h'
        have := sizeOf_lt_of_mem_parts hm
        exact ih _ (by omega) rfl hs (ht.part hm) (isLoose_part hl hm) h' hv
      have onBoth : ∀ s' ∈ s.parts, ∀ t' ∈ t.parts, s'.isSubtype t' = true →
          ∀ {w : Value}, Contains s' w → Contains t' w := by
        intro s' hm t' hm' h' w hw
        have := sizeOf_lt_of_mem_parts hm
        have := sizeOf_lt_of_mem_parts hm'
        exact ih _ (by omega) rfl (hs.part hm) (ht.part hm') (isLoose_part hl hm') h' hw
      cases isSubtype_iff_rule.mp h with
      | top => trivial
      | bottom => exact absurd hv (by simp [Contains])
      | trusted hd => exact absurd hd (by simp [hs.not_dynamic])
      | unchecked => trivial
      | constrained _ => exact absurd ht.not_dynamic (by simp [isDynamic])
      | unions hm =>
          obtain ⟨s', hs', hv'⟩ := contains_union.mp hv
          obtain ⟨t', ht', h'⟩ := hm s' hs'
          exact contains_union.mpr ⟨t', ht', onBoth s' hs' t' ht' h' hv'⟩
      | toMember _ hm =>
          obtain ⟨t', ht', h'⟩ := hm
          exact contains_union.mpr ⟨t', ht', onRight t' ht' h'⟩
      | toEach hm => exact contains_inter.mpr fun t' ht' => onRight t' ht' (hm t' ht')
      | ofMember _ hm =>
          obtain ⟨s', hs', h'⟩ := hm
          exact onLeft s' hs' h' (contains_inter.mp hv s' hs')
      | ofEach _ hm =>
          obtain ⟨s', hs', hv'⟩ := contains_union.mp hv
          exact onLeft s' hs' (hm s' hs') hv'
      | primitive p => exact hv
      | @list e f _ _ least most h' =>
          obtain ⟨items, rfl, -, hi⟩ := hv
          have hb := everywhere_here hl
          simp only [isLooseNode, Bool.and_eq_true, Option.isNone_iff_eq_none] at hb
          obtain ⟨rfl, rfl⟩ := hb
          refine ⟨items, rfl, rfl, fun x hx => ?_⟩
          exact onBoth e (by simp [parts]) f (by simp [parts]) h' (hi x hx)
      | @record fs gs isOpen isOpen' h' =>
          obtain ⟨es, rfl, hf, -⟩ := hv
          obtain rfl : isOpen' = true := everywhere_here hl
          refine ⟨es, rfl, containsFields_iff.mpr fun g hg => ?_, rfl⟩
          have hfg := h' g hg
          cases hf? : findField? fs g.name with
          | none =>
              rw [hf?] at hfg
              exact absurd hfg (by simp [ht.field_required hg])
          | some f =>
              rw [hf?] at hfg
              obtain ⟨hmem, hname⟩ := findField?_mem hf?
              have hheld := containsFields_iff.mp hf f hmem
              rw [ContainsField, hname] at hheld
              rw [ContainsField]
              cases he : Entries.find? es g.name with
              | none =>
                  rw [he] at hheld
                  exact absurd hheld (by simp [hs.field_required hmem])
              | some w =>
                  rw [he] at hheld
                  exact onBoth f.type (List.mem_map_of_mem hmem) g.type
                    (List.mem_map_of_mem hg) hfg hheld
      | function => exact absurd hv (by simp [Contains])
      | prompt => exact absurd hv (by simp [Contains])

/-- A value that fits a type fits every type above it.  There has to be room for
the height of the type above; functions and prompts need not be excluded, since no
value fits them. -/
theorem fit_of_isSubtype {s t : Ty} {room : Int} {v : Value}
    (ss : s.isStatic = true) (st : t.isStatic = true)
    (rs : s.requiresFields = true) (rt : t.requiresFields = true) (hl : t.isLoose = true)
    (hr : (t.height : Int) ≤ room) (h : s.isSubtype t = true) (hv : s.fit room v = .fits) :
    t.fit room v = .fits :=
  (fit_eq_fits_iff hr).mpr (contains_of_isSubtype ⟨ss, rs⟩ ⟨st, rt⟩ hl h (contains_of_fit hv))

/-- A closed record with a bounded list fits an open one with less to ask for. -/
theorem fit_of_isSubtype_record :
    let s := record
      [⟨"tags", list string (some 1) none, false, none⟩, ⟨"n", number, false, none⟩] false
    let t := union
      [null, record [⟨"tags", list (union [string, null]) none none, false, none⟩] true]
    let v := Value.obj [("n", .int 7), ("tags", .arr [.str "a", .str "b"])]
    s.isSubtype t = true ∧ s.fit 4 v = .fits ∧ t.fit 4 v = .fits := by
  intro s t v
  have h : s.isSubtype t = true := by
    simp [s, t, isSubtype, belowSome_eq, suppliesFields, suppliesField]
  have hv : s.fit 4 v = .fits := by rfl
  exact ⟨h, hv, fit_of_isSubtype rfl rfl rfl rfl rfl (by decide) h hv⟩

end TypedPrompt.Ty
