/-
# `Proofs.Ty.Sameness` — equality of types

Equality of types compares temperatures as numbers, and the value that is no number
differs from itself.  So it is symmetric (`same_comm`) and transitive (`same_trans`), a
partial equivalence, but not reflexive.  A type in which no temperature is that value
equals itself (`same_self`).  No numeral is read as it (`Numeral.toBinary64_ne_nan`), so
every type that is read is such a type.
-/
import TypedPrompt.Number.Numeral
import TypedPrompt.Proofs.Ty.Components

namespace TypedPrompt

namespace Binary64

theorem sameNumber_comm (x y : Binary64) : x.sameNumber y = y.sameNumber x := by
  cases x <;> cases y <;> simp only [sameNumber]
  case infinite.infinite s t => exact Bool.beq_comm
  case finite.finite s m e t n f =>
    rw [Bool.and_comm (m == 0), Bool.beq_comm (a := s), Bool.beq_comm (a := m) (b := n),
      Bool.beq_comm (a := e)]

theorem sameNumber_trans {x y z : Binary64} (hxy : x.sameNumber y = true)
    (hyz : y.sameNumber z = true) : x.sameNumber z = true := by
  cases x <;> cases y <;> simp only [sameNumber, Bool.false_eq_true] at hxy
  all_goals cases z <;> simp only [sameNumber, Bool.false_eq_true] at hyz ⊢
  case infinite.infinite.infinite => exact (beq_iff_eq.mp hxy).symm ▸ hyz
  -- either all three are zero, or sign, significand and exponent are handed on
  case finite.finite.finite => grind

theorem sameNumber_self {x : Binary64} (h : x ≠ nan) : x.sameNumber x = true := by
  cases x <;> simp_all [sameNumber]

theorem ofRounded_ne_nan (negative : Bool) (significand : Nat) (exponent : Int) :
    ofRounded negative significand exponent ≠ nan := by
  unfold ofRounded
  dsimp only
  split <;> split <;> simp

theorem ofDecimal_ne_nan (negative : Bool) (coefficient : Nat) (exponent : Int) :
    ofDecimal negative coefficient exponent ≠ nan := by
  unfold ofDecimal ofRatio zero
  repeat' split
  all_goals first | exact ofRounded_ne_nan _ _ _ | simp

end Binary64

theorem Numeral.toBinary64_ne_nan (n : Numeral) : n.toBinary64 ≠ .nan :=
  Binary64.ofDecimal_ne_nan _ _ _

namespace Ty

/-! ## Equality of types is symmetric -/

theorem sameTemperature_comm (x y : Option Binary64) :
    sameTemperature x y = sameTemperature y x := by
  cases x <;> cases y <;> simp [sameTemperature, Binary64.sameNumber_comm]

mutual

theorem same_comm : ∀ t u : Ty, same t u = same u t
  | primitive p, u => by cases u <;> simp only [same]; exact Bool.beq_comm
  | any, u => by cases u <;> simp only [same]
  | never, u => by cases u <;> simp only [same]
  | dynamic, u => by cases u <;> simp only [same]
  | dynamicOf c, u => by cases u <;> simp only [same]; exact same_comm c _
  | list e least most, u => by
      cases u <;> simp only [same]
      rw [same_comm e, Bool.beq_comm (a := least), Bool.beq_comm (a := most)]
  | record fs isOpen, u => by
      cases u <;> simp only [same]
      rw [sameFields_comm fs, Bool.beq_comm (a := isOpen)]
  | function ps r, u => by
      cases u <;> simp only [same]
      rw [sameParams_comm ps, same_comm r]
  | union ts, u => by cases u <;> simp only [same]; exact sameAll_comm ts _
  | inter ts, u => by cases u <;> simp only [same]; exact sameAll_comm ts _
  | prompt i o model x, u => by
      cases u <;> simp only [same]
      rw [same_comm i, same_comm o, Bool.beq_comm (a := model), sameTemperature_comm x]

theorem sameAll_comm : ∀ ts us : List Ty, sameAll ts us = sameAll us ts
  | [], us => by cases us <;> simp [sameAll]
  | t :: ts, us => by
      cases us <;> simp only [sameAll, List.isEmpty_cons]
      rw [same_comm t, sameAll_comm ts]

theorem sameFields_comm : ∀ fs gs : List (Field Ty), sameFields fs gs = sameFields gs fs
  | [], [] => rfl
  | [], ⟨_, _, _, _⟩ :: _ => by simp [sameFields]
  | ⟨_, _, _, _⟩ :: _, [] => by simp [sameFields]
  | ⟨name, t, isOptional, description⟩ :: fs, ⟨_, _, _, _⟩ :: gs => by
      simp only [sameFields]
      rw [same_comm t, sameFields_comm fs, Bool.beq_comm (a := name),
        Bool.beq_comm (a := isOptional), Bool.beq_comm (a := description)]

theorem sameParams_comm : ∀ ps qs : List (Param Ty), sameParams ps qs = sameParams qs ps
  | [], [] => rfl
  | [], ⟨_, _, _⟩ :: _ => by simp [sameParams]
  | ⟨_, _, _⟩ :: _, [] => by simp [sameParams]
  | ⟨name, t, isOptional⟩ :: ps, ⟨_, _, _⟩ :: qs => by
      simp only [sameParams]
      rw [same_comm t, sameParams_comm ps, Bool.beq_comm (a := name),
        Bool.beq_comm (a := isOptional)]

end

/-! ## Equality of types is transitive -/

theorem sameTemperature_trans {x y z : Option Binary64} (hxy : sameTemperature x y = true)
    (hyz : sameTemperature y z = true) : sameTemperature x z = true := by
  cases x <;> cases y <;> simp only [sameTemperature, Bool.false_eq_true] at hxy
  all_goals cases z <;> simp only [sameTemperature, Bool.false_eq_true] at hyz ⊢
  exact Binary64.sameNumber_trans hxy hyz

mutual

theorem same_trans : ∀ t u w : Ty, same t u = true → same u w = true → same t w = true
  | primitive _, u, w, h, h' => by
      cases u <;> simp only [same, Bool.false_eq_true] at h
      cases w <;> simp only [same, Bool.false_eq_true] at h' ⊢
      exact (beq_iff_eq.mp h) ▸ h'
  | any, u, w, h, h' => by
      cases u <;> simp only [same, Bool.false_eq_true] at h
      exact h'
  | never, u, w, h, h' => by
      cases u <;> simp only [same, Bool.false_eq_true] at h
      exact h'
  | dynamic, u, w, h, h' => by
      cases u <;> simp only [same, Bool.false_eq_true] at h
      exact h'
  | dynamicOf c, u, w, h, h' => by
      cases u <;> simp only [same, Bool.false_eq_true] at h
      cases w <;> simp only [same, Bool.false_eq_true] at h' ⊢
      exact same_trans c _ _ h h'
  | list e _ _, u, w, h, h' => by
      cases u <;> simp only [same, Bool.false_eq_true, Bool.and_eq_true, beq_iff_eq] at h
      cases w <;> simp only [same, Bool.false_eq_true, Bool.and_eq_true, beq_iff_eq] at h' ⊢
      exact ⟨⟨same_trans e _ _ h.1.1 h'.1.1, h.1.2.trans h'.1.2⟩, h.2.trans h'.2⟩
  | record fs _, u, w, h, h' => by
      cases u <;> simp only [same, Bool.false_eq_true, Bool.and_eq_true, beq_iff_eq] at h
      cases w <;> simp only [same, Bool.false_eq_true, Bool.and_eq_true, beq_iff_eq] at h' ⊢
      exact ⟨sameFields_trans fs _ _ h.1 h'.1, h.2.trans h'.2⟩
  | function ps r, u, w, h, h' => by
      cases u <;> simp only [same, Bool.false_eq_true, Bool.and_eq_true] at h
      cases w <;> simp only [same, Bool.false_eq_true, Bool.and_eq_true] at h' ⊢
      exact ⟨sameParams_trans ps _ _ h.1 h'.1, same_trans r _ _ h.2 h'.2⟩
  | union ts, u, w, h, h' => by
      cases u <;> simp only [same, Bool.false_eq_true] at h
      cases w <;> simp only [same, Bool.false_eq_true] at h' ⊢
      exact sameAll_trans ts _ _ h h'
  | inter ts, u, w, h, h' => by
      cases u <;> simp only [same, Bool.false_eq_true] at h
      cases w <;> simp only [same, Bool.false_eq_true] at h' ⊢
      exact sameAll_trans ts _ _ h h'
  | prompt i o _ _, u, w, h, h' => by
      cases u <;> simp only [same, Bool.false_eq_true, Bool.and_eq_true, beq_iff_eq] at h
      cases w <;> simp only [same, Bool.false_eq_true, Bool.and_eq_true, beq_iff_eq] at h' ⊢
      obtain ⟨⟨⟨hi, ho⟩, hmodel⟩, hx⟩ := h
      obtain ⟨⟨⟨hi', ho'⟩, hmodel'⟩, hx'⟩ := h'
      exact ⟨⟨⟨same_trans i _ _ hi hi', same_trans o _ _ ho ho'⟩, hmodel.trans hmodel'⟩,
        sameTemperature_trans hx hx'⟩

theorem sameAll_trans : ∀ ts us ws : List Ty, sameAll ts us = true → sameAll us ws = true →
    sameAll ts ws = true
  | [], us, ws, h, h' => by
      obtain rfl : us = [] := by simpa [sameAll] using h
      exact h'
  | t :: ts, us, ws, h, h' => by
      cases us <;> simp only [sameAll, Bool.false_eq_true, Bool.and_eq_true] at h
      cases ws <;> simp only [sameAll, Bool.false_eq_true, Bool.and_eq_true] at h' ⊢
      exact ⟨same_trans t _ _ h.1 h'.1, sameAll_trans ts _ _ h.2 h'.2⟩

theorem sameFields_trans : ∀ fs gs ks : List (Field Ty), sameFields fs gs = true →
    sameFields gs ks = true → sameFields fs ks = true
  | [], gs, ks, h, h' => by
      obtain rfl : gs = [] := by simpa [sameFields] using h
      exact h'
  | ⟨_, t, _, _⟩ :: fs, gs, ks, h, h' => by
      rcases gs with _ | ⟨⟨_, _, _, _⟩, gs⟩ <;>
        simp only [sameFields, Bool.false_eq_true, Bool.and_eq_true, beq_iff_eq] at h
      cases ks <;> simp only [sameFields, Bool.false_eq_true, Bool.and_eq_true, beq_iff_eq] at h' ⊢
      obtain ⟨⟨⟨⟨hname, ht⟩, hmark⟩, htext⟩, hrest⟩ := h
      obtain ⟨⟨⟨⟨hname', ht'⟩, hmark'⟩, htext'⟩, hrest'⟩ := h'
      exact ⟨⟨⟨⟨hname.trans hname', same_trans t _ _ ht ht'⟩, hmark.trans hmark'⟩,
        htext.trans htext'⟩, sameFields_trans fs _ _ hrest hrest'⟩

theorem sameParams_trans : ∀ ps qs ks : List (Param Ty), sameParams ps qs = true →
    sameParams qs ks = true → sameParams ps ks = true
  | [], qs, ks, h, h' => by
      obtain rfl : qs = [] := by simpa [sameParams] using h
      exact h'
  | ⟨_, t, _⟩ :: ps, qs, ks, h, h' => by
      rcases qs with _ | ⟨⟨_, _, _⟩, qs⟩ <;>
        simp only [sameParams, Bool.false_eq_true, Bool.and_eq_true, beq_iff_eq] at h
      cases ks <;> simp only [sameParams, Bool.false_eq_true, Bool.and_eq_true, beq_iff_eq] at h' ⊢
      obtain ⟨⟨⟨hname, ht⟩, hmark⟩, hrest⟩ := h
      obtain ⟨⟨⟨hname', ht'⟩, hmark'⟩, hrest'⟩ := h'
      exact ⟨⟨⟨hname.trans hname', same_trans t _ _ ht ht'⟩, hmark.trans hmark'⟩,
        sameParams_trans ps _ _ hrest hrest'⟩

end

instance : PartialEquivBEq Ty where
  symm {t u} h := (same_comm u t).trans h
  trans {t u w} h h' := same_trans t u w h h'

/-! ## Equality of types is reflexive, where temperatures are numbers -/

/-- The temperature, if there is one, is a number. -/
def isComparableNode : Ty → Bool
  | prompt _ _ _ (some x) => x.sameNumber x
  | _ => true

mutual

/-- A type whose temperatures are numbers equals itself. -/
theorem same_self : ∀ t : Ty, t.everywhere isComparableNode = true → same t t = true
  | primitive _, _ => by simp [same]
  | any, _ | never, _ | dynamic, _ => by simp [same]
  | dynamicOf c, h => by
      rw [same]
      exact same_self c (by simpa [everywhere, isComparableNode] using h)
  | list e _ _, h => by
      have he := same_self e (by simpa [everywhere, isComparableNode] using h)
      simp [same, he]
  | record fs _, h => by
      have hfs := sameFields_self fs (by simpa [everywhere, isComparableNode] using h)
      simp [same, hfs]
  | function ps r, h => by
      simp only [everywhere, isComparableNode, Bool.true_and, Bool.and_eq_true] at h
      simp [same, sameParams_self ps h.1, same_self r h.2]
  | union ts, h => by
      rw [same]
      exact sameAll_self ts (by simpa [everywhere, isComparableNode] using h)
  | inter ts, h => by
      rw [same]
      exact sameAll_self ts (by simpa [everywhere, isComparableNode] using h)
  | prompt i o _ x, h => by
      simp only [everywhere, Bool.and_eq_true] at h
      have hx : sameTemperature x x = true := by
        cases x with
        | none => rfl
        | some x => exact h.1
      simp [same, same_self i h.2.1, same_self o h.2.2, hx]

theorem sameAll_self : ∀ ts : List Ty, everywhereAll isComparableNode ts = true →
    sameAll ts ts = true
  | [], _ => by simp [sameAll]
  | t :: ts, h => by
      simp only [everywhereAll, Bool.and_eq_true] at h
      simp [sameAll, same_self t h.1, sameAll_self ts h.2]

theorem sameFields_self : ∀ fs : List (Field Ty), everywhereFields isComparableNode fs = true →
    sameFields fs fs = true
  | [], _ => by simp [sameFields]
  | ⟨_, t, _, _⟩ :: fs, h => by
      simp only [everywhereFields, Bool.and_eq_true] at h
      simp [sameFields, same_self t h.1, sameFields_self fs h.2]

theorem sameParams_self : ∀ ps : List (Param Ty), everywhereParams isComparableNode ps = true →
    sameParams ps ps = true
  | [], _ => by simp [sameParams]
  | ⟨_, t, _⟩ :: ps, h => by
      simp only [everywhereParams, Bool.and_eq_true] at h
      simp [sameParams, same_self t h.1, sameParams_self ps h.2]

end

end Ty

end TypedPrompt
