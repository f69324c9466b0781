/-
# `Proofs.Json.Writing` — integers that are not written

An integer with more than `maxDigits` digits has no text, and so no value has one that holds
such an integer, at whatever depth (`HoldsOverlong`).  All other values have a text
(`text_eq_error_iff`).

What a numeral stands for can be written: it is read only if its digits are few enough, and
an integer has no more digits than it is written with (`isOverlong_of_toInt?`).
-/
import Mathlib.Data.List.Basic
import Mathlib.Data.List.Induction
import Mathlib.Data.Nat.Digits.Defs
import TypedPrompt.Json.Text

namespace TypedPrompt

open OversizedInteger

/-! ## Digits -/

theorem natOfDigits_concat (ds : List Char) (c : Char) :
    natOfDigits (ds ++ [c]) = 10 * natOfDigits ds + (c.toNat - '0'.toNat) := by
  rw [natOfDigits, List.foldl_append, ← natOfDigits, List.foldl_cons, List.foldl_nil]

theorem natOfDigits_lt {ds : List Char} (h : ∀ c ∈ ds, Text.isDigit c = true) :
    natOfDigits ds < 10 ^ ds.length := by
  induction ds using List.reverseRecOn with
  | nil => exact Nat.one_pos
  | append_singleton ds c ih =>
      rw [List.forall_mem_append, List.forall_mem_singleton] at h
      have hfront := ih h.1
      have hdigit : c.toNat - '0'.toNat < 10 := by
        obtain ⟨-, hle⟩ : '0' ≤ c ∧ c ≤ '9' := by simpa [Text.isDigit] using h.2
        have hnine : c.toNat ≤ '9'.toNat := hle
        simp only [Char.reduceToNat] at hnine ⊢
        omega
      rw [natOfDigits_concat, List.length_append, List.length_singleton, Nat.pow_succ]
      omega

theorem isOverlong_eq_false_of_lt {n : Int} (h : n.natAbs < 10 ^ maxDigits) :
    isOverlong n = false := by
  have hlength : n.natAbs.repr.length ≤ maxDigits := Nat.repr_length _ _ (by decide) h
  exact decide_eq_false (Nat.not_lt.mpr hlength)

/-- The integer that a numeral stands for can be written. -/
theorem isOverlong_of_toInt? {n : Numeral} {i : Int}
    (hdigits : ∀ c ∈ n.whole, Text.isDigit c = true) (h : n.toInt? = some i) :
    isOverlong i = false := by
  unfold Numeral.toInt? at h
  split at h
  · cases h
  · next hfew =>
      have hi : i.natAbs = natOfDigits n.whole := by
        obtain rfl := Option.some.inj h
        split <;> simp
      refine isOverlong_eq_false_of_lt (hi ▸ (natOfDigits_lt hdigits).trans_le ?_)
      exact Nat.pow_le_pow_right (by decide) (Nat.not_lt.mp hfew)

/-! ## Values -/

namespace Value

mutual

/-- The integers in a value, in order. -/
def integers : Value → List Int
  | int n => [n]
  | arr items => integersItems items
  | obj entries => integersEntries entries
  | _ => []

/-- The integers in the items. -/
def integersItems : List Value → List Int
  | [] => []
  | v :: vs => integers v ++ integersItems vs

/-- The integers in the values of the entries. -/
def integersEntries : List (String × Value) → List Int
  | [] => []
  | (_, v) :: es => integers v ++ integersEntries es

end

/-- Somewhere in the value is an integer with too many digits. -/
def HoldsOverlong (v : Value) : Prop := ∃ n ∈ v.integers, isOverlong n = true

variable {vs : List Value} {es : Entries Value}

theorem mem_integersItems {n : Int} : n ∈ integersItems vs ↔ ∃ v ∈ vs, n ∈ v.integers := by
  induction vs with
  | nil => simp [integersItems]
  | cons v vs ih => rw [integersItems, List.mem_append, ih, List.exists_mem_cons_iff]

theorem mem_integersEntries {n : Int} :
    n ∈ integersEntries es ↔ ∃ entry ∈ es, n ∈ entry.2.integers := by
  induction es with
  | nil => simp [integersEntries]
  | cons entry es ih => rw [integersEntries, List.mem_append, ih, List.exists_mem_cons_iff]

theorem holdsOverlong_arr_iff : (arr vs).HoldsOverlong ↔ ∃ v ∈ vs, v.HoldsOverlong := by
  simp only [HoldsOverlong, integers, mem_integersItems]
  exact ⟨fun ⟨n, ⟨v, hv, hn⟩, hlong⟩ => ⟨v, hv, n, hn, hlong⟩,
    fun ⟨v, hv, n, hn, hlong⟩ => ⟨n, ⟨v, hv, hn⟩, hlong⟩⟩

theorem holdsOverlong_obj_iff :
    (obj es).HoldsOverlong ↔ ∃ entry ∈ es, entry.2.HoldsOverlong := by
  simp only [HoldsOverlong, integers, mem_integersEntries]
  exact ⟨fun ⟨n, ⟨entry, hentry, hn⟩, hlong⟩ => ⟨entry, hentry, n, hn, hlong⟩,
    fun ⟨entry, hentry, n, hn, hlong⟩ => ⟨n, ⟨entry, hentry, hn⟩, hlong⟩⟩

theorem not_holdsOverlong_of_integers {v : Value} (h : v.integers = []) : ¬ v.HoldsOverlong := by
  simp [HoldsOverlong, h]

end Value

/-! ## The text of a value -/

namespace Json

mutual

/-- A value has no text exactly if an integer in it has too many digits. -/
theorem text_eq_error_iff : ∀ v : Value, text v = .error .mk ↔ v.HoldsOverlong
  | .null | .bool _ | .real _ | .str _ => by
      simp [text, Value.HoldsOverlong, Value.integers]
  | .int n => by
      simp [text, integerText, Value.HoldsOverlong, Value.integers]
  | .arr vs => by
      rw [text, map_eq_error_iff, itemTexts_eq_error_iff vs, Value.holdsOverlong_arr_iff]
  | .obj es => by
      rw [text, map_eq_error_iff, entryTexts_eq_error_iff es, Value.holdsOverlong_obj_iff]

theorem itemTexts_eq_error_iff : ∀ vs : List Value,
    itemTexts vs = .error .mk ↔ ∃ v ∈ vs, v.HoldsOverlong
  | [] => by simp [itemTexts]
  | v :: vs => by
      rw [List.exists_mem_cons_iff, ← text_eq_error_iff v, ← itemTexts_eq_error_iff vs, itemTexts]
      cases text v <;> cases itemTexts vs <;> simp [Bind.bind, Except.bind]

theorem entryTexts_eq_error_iff : ∀ es : List (String × Value),
    entryTexts es = .error .mk ↔ ∃ entry ∈ es, entry.2.HoldsOverlong
  | [] => by simp [entryTexts]
  | (name, v) :: es => by
      rw [List.exists_mem_cons_iff, ← text_eq_error_iff v, ← entryTexts_eq_error_iff es, entryTexts]
      cases text v <;> cases entryTexts es <;> simp [Bind.bind, Except.bind]

end

end Json

end TypedPrompt
