/-
# `Proofs.Schema.RequiredFields` — fields that the record above asks for

A record is below another one if it declares the fields that the other one requires,
with types below theirs.  Whether it requires them itself is not asked, so marking all
of its fields as optional changes nothing (`isSubtype_record_asOptional`); but then it
has the empty object among its values.  So a value of the record below has a field
that the record above requires if the record below requires it too
(`has_required_field`), and otherwise it may lack it (`lacks_required_field`).
-/
import TypedPrompt.Proofs.Schema.Membership
import TypedPrompt.Proofs.Ty.Rules

namespace TypedPrompt

/-- The field with the mark that it may be left out. -/
def Field.asOptional {τ : Type} (f : Field τ) : Field τ := { f with isOptional := true }

namespace Ty

variable {fs gs : List (Field Ty)} {g : Field Ty} {isOpen isOpen' : Bool} {room : Int}

/-- An object holds every field that is not optional. -/
theorem ContainsField.has {f : Field Ty} {es : Entries Value} (h : ContainsField f es)
    (hf : f.isOptional = false) : Entries.has es f.name = true := by
  rw [ContainsField] at h
  rw [Entries.has]
  cases hfind : Entries.find? es f.name with
  | some w => rfl
  | none =>
      rw [hfind] at h
      exact absurd h (by simp [hf])

/-- What a record is below declares no required field that the record lacks. -/
theorem declares_of_isSubtype (h : (record fs isOpen).isSubtype (record gs isOpen') = true)
    (hg : g ∈ gs) (hreq : g.isOptional = false) : ∃ f ∈ fs, f.name = g.name := by
  cases isSubtype_iff_rule.mp h with
  | trusted hdynamic => exact absurd hdynamic (by simp [isDynamic])
  | record hsupplies =>
      have hfield := hsupplies g hg
      cases hfind : findField? fs g.name with
      | some f => exact ⟨f, findField?_mem hfind⟩
      | none =>
          rw [hfind] at hfield
          exact absurd hfield (by simp [hreq])

/-- A value that fits the record below has each field that the record above requires,
unless the record below lets it be left out. -/
theorem has_required_field (hsub : (record fs isOpen).isSubtype (record gs isOpen') = true)
    (hg : g ∈ gs) (hreq : g.isOptional = false)
    (hmark : ∀ f ∈ fs, f.name = g.name → f.isOptional = false) {v : Value}
    (hv : (record fs isOpen).fit room v = .fits) :
    ∃ es, v = .obj es ∧ Entries.has es g.name = true := by
  obtain ⟨f, hf, hname⟩ := declares_of_isSubtype hsub hg hreq
  obtain ⟨es, rfl, hfields, -⟩ := contains_of_fit hv
  have hheld : ContainsField f es := containsFields_iff.mp hfields f hf
  exact ⟨es, rfl, hname ▸ hheld.has (hmark f hf hname)⟩

/-- A closed record with more fields than the one above, of which one is optional. -/
theorem has_required_field_closed :
    let a : Field Ty := ⟨"a", union [string, null], false, none⟩
    let below := record [⟨"b", number, true, none⟩, ⟨"a", string, false, none⟩] false
    let v := Value.obj [("a", .str "x")]
    below.isSubtype (record [a] true) = true ∧ below.fit 2 v = .fits
      ∧ ∃ es, v = .obj es ∧ Entries.has es "a" = true := by
  intro a below v
  have hsub : below.isSubtype (record [a] true) = true := by
    simp [below, a, isSubtype, belowSome_eq, suppliesFields, suppliesField]
  have hv : below.fit 2 v = .fits := by
    rfl
  exact ⟨hsub, hv, has_required_field hsub List.mem_cons_self rfl (by simp [a]) hv⟩

/-! ## The marks of the record below -/

theorem findField?_asOptional (name : String) :
    findField? (fs.map Field.asOptional) name = (findField? fs name).map Field.asOptional :=
  List.find?_map

/-- The test does not look at the marks of the record below. -/
theorem isSubtype_record_asOptional :
    (record (fs.map Field.asOptional) isOpen).isSubtype (record gs isOpen')
      = (record fs isOpen).isSubtype (record gs isOpen') := by
  have hsame : Supplies (fs.map Field.asOptional) gs ↔ Supplies fs gs := by
    refine forall₂_congr fun g _ => ?_
    rw [findField?_asOptional]
    cases findField? fs g.name <;> exact Iff.rfl
  rw [isSubtype, isSubtype, Bool.eq_iff_iff, suppliesFields_iff, suppliesFields_iff, hsame]

/-- A record whose fields are all optional has the empty object among its values. -/
theorem fit_empty_asOptional (hroom : 0 ≤ room) :
    (record (fs.map Field.asOptional) isOpen).fit room (.obj []) = .fits := by
  have hfields : fitFields (room - 1) (fs.map Field.asOptional) [] = .fits := by
    induction fs with
    | nil => rfl
    | cons f fs ih =>
        simpa [fitFields, Field.asOptional, Entries.find?, Fit.ofBool, Fit.both] using ih
  have hroom : ¬ room < 0 := by
    omega
  rw [fit, if_neg hroom]
  simp [hfields, declaresAll, Fit.both, Fit.ofBool]

/-- The empty object is of a type below one that requires a field. -/
theorem lacks_required_field :
    let below : Field Ty := ⟨"a", string, true, none⟩
    let above : Field Ty := ⟨"a", string, false, none⟩
    ([below].map Field.name).Nodup ∧ ([above].map Field.name).Nodup
      ∧ (record [below] true).isSubtype (record [above] true) = true
      ∧ (record [below] true).fit 64 (.obj []) = .fits
      ∧ Entries.has ([] : Entries Value) above.name = false := by
  intro below above
  have hself : (record [above] true).isSubtype (record [above] true) = true := by
    simp [above, isSubtype, suppliesFields, suppliesField]
  have hbelow : [below] = [above].map Field.asOptional := rfl
  refine ⟨by simp, by simp, ?_, ?_, rfl⟩
  · rw [hbelow, isSubtype_record_asOptional]
    exact hself
  · rw [hbelow]
    exact fit_empty_asOptional (by decide)

end Ty

end TypedPrompt
