/-
# `Proofs.Number.Rounding` — rounded numbers are in normal form

A finite number that comes of rounding has a significand of at least `2 ^ 52`, unless its
exponent is the least one (`ofDecimal_isNormal`), and the sign that was asked for.  The scale
is chosen by the leading bit of the ratio, which `leadingExponent` finds
(`scaleDown_leadingExponent`); so `2 ^ 52` of the chosen steps are no more than the ratio, and
rounding does not fall below a whole number of steps.

Numbers in normal form of one sign that are equal as numbers are identical
(`eq_of_sameNumber`); otherwise zero would have as many forms as there are exponents.
-/
import TypedPrompt.Number.Numeral

namespace TypedPrompt

theorem le_roundHalfEven (num den : Nat) : num / den ≤ roundHalfEven num den := by
  unfold roundHalfEven
  dsimp only
  split
  · exact Nat.le_refl _
  · split
    · exact Nat.le_succ _
    · split
      · exact Nat.le_refl _
      · exact Nat.le_succ _

namespace Binary64

variable {num den : Nat}

/-! ## Scaling -/

/-- A ratio that is not below a power of two is not below a smaller one, and by how much. -/
theorem scaleDown_le_of_shift {exponent : Int} (k : Nat)
    (h : (scaleDown num den (exponent + k)).2 ≤ (scaleDown num den (exponent + k)).1) :
    (scaleDown num den exponent).2 * Nat.pow 2 k ≤ (scaleDown num den exponent).1 := by
  have h : den * 2 ^ (exponent + k).toNat ≤ num * 2 ^ (-(exponent + k)).toNat := h
  show den * 2 ^ exponent.toNat * 2 ^ k ≤ num * 2 ^ (-exponent).toNat
  have hexponents : exponent.toNat + k + (-(exponent + k)).toNat
      = (exponent + k).toNat + (-exponent).toNat := by omega
  refine Nat.le_of_mul_le_mul_right ?_ (Nat.two_pow_pos (-(exponent + k)).toNat)
  calc den * 2 ^ exponent.toNat * 2 ^ k * 2 ^ (-(exponent + k)).toNat
      = den * 2 ^ (exponent + k).toNat * 2 ^ (-exponent).toNat := by
        rw [Nat.mul_assoc den, ← Nat.pow_add, Nat.mul_assoc, ← Nat.pow_add, hexponents,
          Nat.pow_add, Nat.mul_assoc]
    _ ≤ num * 2 ^ (-(exponent + k)).toNat * 2 ^ (-exponent).toNat := Nat.mul_le_mul_right _ h
    _ = num * 2 ^ (-exponent).toNat * 2 ^ (-(exponent + k)).toNat := Nat.mul_right_comm ..

/-- The leading bit of a ratio is not above it. -/
theorem scaleDown_leadingExponent (hnum : num ≠ 0) :
    (scaleDown num den (leadingExponent num den)).2
      ≤ (scaleDown num den (leadingExponent num den)).1 := by
  unfold leadingExponent
  dsimp only
  split
  · next h => exact h
  · -- one less than the difference of the bit lengths
    generalize hguess : (Nat.log2 num : Int) - (Nat.log2 den : Int) = guess
    show den * 2 ^ (guess - 1).toNat ≤ num * 2 ^ (-(guess - 1)).toNat
    have hexponents : den.log2 + 1 + (guess - 1).toNat = num.log2 + (-(guess - 1)).toNat := by
      omega
    calc den * 2 ^ (guess - 1).toNat
        ≤ 2 ^ (den.log2 + 1) * 2 ^ (guess - 1).toNat :=
          Nat.mul_le_mul_right _ (Nat.le_of_lt Nat.lt_log2_self)
      _ = 2 ^ num.log2 * 2 ^ (-(guess - 1)).toNat := by
          rw [← Nat.pow_add, ← Nat.pow_add, hexponents]
      _ ≤ num * 2 ^ (-(guess - 1)).toNat := Nat.mul_le_mul_right _ (Nat.log2_self_le hnum)

/-! ## Normal form -/

/-- A number of the sign; a finite one has a full significand or the least exponent. -/
def IsNormal (negative : Bool) : Binary64 → Prop
  | nan => False
  | infinite s => s = negative
  | finite s significand exponent =>
      s = negative ∧ (Nat.pow 2 52 ≤ significand ∨ exponent = -1074)

instance (negative : Bool) : DecidablePred (IsNormal negative) := fun x =>
  match x with
  | nan => inferInstanceAs (Decidable False)
  | infinite _ => inferInstanceAs (Decidable (_ = _))
  | finite .. => inferInstanceAs (Decidable (_ ∧ _))

/-- Numbers of one sign that are equal as numbers have the same parts. -/
theorem eq_of_sameNumber {negative : Bool} {x y : Binary64} (hx : x.IsNormal negative)
    (hy : y.IsNormal negative) (h : x.sameNumber y = true) : x = y := by
  cases x with
  | nan => exact hx.elim
  | infinite s =>
      cases y with
      | infinite t => rw [show s = negative from hx, show t = negative from hy]
      | _ => cases h
  | finite s m e =>
      cases y with
      | finite t n f =>
          obtain ⟨rfl, hm⟩ := hx
          obtain ⟨rfl, hn⟩ := hy
          simp only [sameNumber, Bool.or_eq_true, Bool.and_eq_true, beq_iff_eq] at h
          rcases h with ⟨rfl, rfl⟩ | ⟨⟨-, rfl⟩, rfl⟩
          · -- both are zero, whose exponent is the least one
            obtain rfl : e = -1074 := hm.resolve_left (by decide)
            obtain rfl : f = -1074 := hn.resolve_left (by decide)
            rfl
          · rfl
      | _ => cases h

theorem zero_isNormal (negative : Bool) : (zero negative).IsNormal negative := ⟨rfl, .inr rfl⟩

theorem ofRounded_isNormal (negative : Bool) {significand : Nat} {exponent : Int}
    (h : Nat.pow 2 52 ≤ significand ∨ exponent = -1074) :
    (ofRounded negative significand exponent).IsNormal negative := by
  unfold ofRounded
  dsimp only
  split
  · split
    · rfl
    · exact ⟨rfl, .inl (Nat.le_refl _)⟩
  · split
    · rfl
    · exact ⟨rfl, h⟩

theorem ofRatio_isNormal (negative : Bool) (hden : den ≠ 0) :
    (ofRatio negative num den).IsNormal negative := by
  unfold ofRatio
  split
  · exact zero_isNormal negative
  · next hnum =>
      refine ofRounded_isNormal negative ?_
      generalize hleading : leadingExponent num den = leading
      rcases Int.le_total (leading - 52) (-1074) with hsmall | hlarge
      · exact .inr (Int.max_eq_right hsmall)
      · left
        rw [show lastExponent leading = leading - 52 from Int.max_eq_left hlarge]
        have hscaled : (scaleDown num den (leadingExponent num den)).2
            ≤ (scaleDown num den (leadingExponent num den)).1 :=
          scaleDown_leadingExponent hnum
        rw [hleading, show leading = leading - 52 + (52 : Nat) by omega] at hscaled
        have hsteps := scaleDown_le_of_shift 52 hscaled
        have hpos : 0 < (scaleDown num den (leading - 52)).2 :=
          Nat.mul_pos (Nat.pos_of_ne_zero hden) (Nat.two_pow_pos _)
        calc Nat.pow 2 52
            ≤ (scaleDown num den (leading - 52)).1 / (scaleDown num den (leading - 52)).2 := by
              rw [Nat.le_div_iff_mul_le hpos, Nat.mul_comm]
              exact hsteps
          _ ≤ _ := le_roundHalfEven _ _

/-- A number that is read is in normal form. -/
theorem ofDecimal_isNormal (negative : Bool) (coefficient : Nat) (exponent : Int) :
    (ofDecimal negative coefficient exponent).IsNormal negative := by
  unfold ofDecimal
  split
  · exact zero_isNormal negative
  · split
    · rfl
    · split
      · exact zero_isNormal negative
      · exact ofRatio_isNormal negative (Nat.ne_of_gt (Nat.pow_pos (by decide)))

end Binary64

theorem Numeral.toBinary64_isNormal (n : Numeral) : n.toBinary64.IsNormal n.negative :=
  Binary64.ofDecimal_isNormal _ _ _

end TypedPrompt
