/-
# `Proofs.Ty.Identity` — written types that are equal are identical

Equality of types looks at every attribute, and at all of them but the temperatures of
prompts as they are.  Temperatures that are written have no sign and are in normal form
(`isWrittenNode`), so that there is nothing that equality overlooks (`eq_of_same`).
-/
import TypedPrompt.Proofs.Number.Rounding
import TypedPrompt.Proofs.Ty.Sameness

namespace TypedPrompt.Ty

/-- The temperature, if there is one, is as it is read. -/
def isWrittenNode : Ty → Bool
  | prompt _ _ _ (some x) => decide (x.IsNormal false)
  | _ => true

theorem isComparableNode_of_isWrittenNode {t : Ty} (h : t.isWrittenNode = true) :
    t.isComparableNode = true := by
  unfold isWrittenNode at h
  unfold isComparableNode
  split
  · refine Binary64.sameNumber_self ?_
    rintro rfl
    exact of_decide_eq_true h
  · rfl

theorem temperature_eq_of_same {i o j p : Ty} {model model' : Option String}
    {x y : Option Binary64} (hx : (prompt i o model x).isWrittenNode = true)
    (hy : (prompt j p model' y).isWrittenNode = true) (h : sameTemperature x y = true) : x = y := by
  cases x <;> cases y <;> simp only [sameTemperature, Bool.false_eq_true] at h
  · rfl
  · exact congrArg some (Binary64.eq_of_sameNumber (of_decide_eq_true hx) (of_decide_eq_true hy) h)

mutual

/-- Written types that are equal are one type. -/
theorem eq_of_same : ∀ t u : Ty, t.everywhere isWrittenNode = true →
    u.everywhere isWrittenNode = true → same t u = true → t = u
  | primitive p, u, _, _, h => by
      cases u <;> simp only [same, Bool.false_eq_true] at h
      rw [beq_iff_eq.mp h]
  | any, u, _, _, h | never, u, _, _, h | dynamic, u, _, _, h => by
      cases u <;> simp only [same, Bool.false_eq_true] at h
      rfl
  | dynamicOf c, u, ht, hu, h => by
      cases u <;> simp only [same, Bool.false_eq_true] at h
      simp only [everywhere, Bool.and_eq_true] at ht hu
      rw [eq_of_same c _ ht.2 hu.2 h]
  | list e _ _, u, ht, hu, h => by
      cases u <;> simp only [same, Bool.false_eq_true, Bool.and_eq_true, beq_iff_eq] at h
      simp only [everywhere, Bool.and_eq_true] at ht hu
      rw [eq_of_same e _ ht.2 hu.2 h.1.1, h.1.2, h.2]
  | record fs _, u, ht, hu, h => by
      cases u <;> simp only [same, Bool.false_eq_true, Bool.and_eq_true, beq_iff_eq] at h
      simp only [everywhere, Bool.and_eq_true] at ht hu
      rw [fields_eq_of_same fs _ ht.2 hu.2 h.1, h.2]
  | function ps r, u, ht, hu, h => by
      cases u <;> simp only [same, Bool.false_eq_true, Bool.and_eq_true] at h
      simp only [everywhere, Bool.and_eq_true] at ht hu
      rw [params_eq_of_same ps _ ht.2.1 hu.2.1 h.1, eq_of_same r _ ht.2.2 hu.2.2 h.2]
  | union ts, u, ht, hu, h => by
      cases u <;> simp only [same, Bool.false_eq_true] at h
      simp only [everywhere, Bool.and_eq_true] at ht hu
      rw [all_eq_of_same ts _ ht.2 hu.2 h]
  | inter ts, u, ht, hu, h => by
      cases u <;> simp only [same, Bool.false_eq_true] at h
      simp only [everywhere, Bool.and_eq_true] at ht hu
      rw [all_eq_of_same ts _ ht.2 hu.2 h]
  | prompt i o _ _, u, ht, hu, h => by
      cases u <;> simp only [same, Bool.false_eq_true, Bool.and_eq_true, beq_iff_eq] at h
      simp only [everywhere, Bool.and_eq_true] at ht hu
      obtain ⟨⟨⟨hi, ho⟩, hmodel⟩, hx⟩ := h
      rw [eq_of_same i _ ht.2.1 hu.2.1 hi, eq_of_same o _ ht.2.2 hu.2.2 ho, hmodel,
        temperature_eq_of_same ht.1 hu.1 hx]

theorem all_eq_of_same : ∀ ts us : List Ty, everywhereAll isWrittenNode ts = true →
    everywhereAll isWrittenNode us = true → sameAll ts us = true → ts = us
  | [], us, _, _, h => by
      obtain rfl : us = [] := by simpa [sameAll] using h
      rfl
  | t :: ts, us, ht, hu, h => by
      cases us <;> simp only [sameAll, Bool.false_eq_true, Bool.and_eq_true] at h
      simp only [everywhereAll, Bool.and_eq_true] at ht hu
      rw [eq_of_same t _ ht.1 hu.1 h.1, all_eq_of_same ts _ ht.2 hu.2 h.2]

theorem fields_eq_of_same : ∀ fs gs : List (Field Ty), everywhereFields isWrittenNode fs = true →
    everywhereFields isWrittenNode gs = true → sameFields fs gs = true → fs = gs
  | [], gs, _, _, h => by
      obtain rfl : gs = [] := by simpa [sameFields] using h
      rfl
  | ⟨_, t, _, _⟩ :: fs, gs, hf, hg, h => by
      rcases gs with _ | ⟨⟨_, _, _, _⟩, gs⟩ <;>
        simp only [sameFields, Bool.false_eq_true, Bool.and_eq_true, beq_iff_eq] at h
      simp only [everywhereFields, Bool.and_eq_true] at hf hg
      obtain ⟨⟨⟨⟨rfl, ht⟩, rfl⟩, rfl⟩, hrest⟩ := h
      rw [eq_of_same t _ hf.1 hg.1 ht, fields_eq_of_same fs _ hf.2 hg.2 hrest]

theorem params_eq_of_same : ∀ ps qs : List (Param Ty), everywhereParams isWrittenNode ps = true →
    everywhereParams isWrittenNode qs = true → sameParams ps qs = true → ps = qs
  | [], qs, _, _, h => by
      obtain rfl : qs = [] := by simpa [sameParams] using h
      rfl
  | ⟨_, t, _⟩ :: ps, qs, hp, hq, h => by
      rcases qs with _ | ⟨⟨_, _, _⟩, qs⟩ <;>
        simp only [sameParams, Bool.false_eq_true, Bool.and_eq_true, beq_iff_eq] at h
      simp only [everywhereParams, Bool.and_eq_true] at hp hq
      obtain ⟨⟨⟨rfl, ht⟩, rfl⟩, hrest⟩ := h
      rw [eq_of_same t _ hp.1 hq.1 ht, params_eq_of_same ps _ hp.2 hq.2 hrest]

end

end TypedPrompt.Ty
