/-
# `Proofs.Schema.QuotedNumbers` — texts where a number is wanted

A text becomes a number if it is written as one, white space around it allowed, and is
left as it is otherwise.  Which texts those are is said by the grammar of numbers, and
which number it is by the reader of JSON: the value is the one that the reader has for
the text without the white space (`coerce_number_str`).

The reader knows words besides, one of which begins with a minus sign as a number may
(`read_of_spelled`), and it has no value for an integer with too many digits.  Of the
texts with no more than `maxDigits` digits in all, none is such an integer.
-/
import TypedPrompt.Proofs.Number.Grammar
import TypedPrompt.Schema.Coercion

namespace TypedPrompt

variable {cs : List Char} {n : Numeral}

/-! ## Numbers as JSON -/

/-- A number begins with a digit, or with a minus sign and a digit. -/
theorem Numeral.Spelled.head (h : Numeral.Spelled cs n) :
    (∃ d ds, cs = d :: ds ∧ Text.isDigit d = true)
      ∨ ∃ d ds, cs = '-' :: d :: ds ∧ Text.isDigit d = true := by
  cases h with
  | intro hs hw hf hx =>
      obtain ⟨d, ds, rfl, hd⟩ := hw.isDigits.head
      cases hs with
      | none => exact .inl ⟨d, _, rfl, hd⟩
      | minus => exact .inr ⟨d, _, rfl, hd⟩

namespace Json

theorem readWord_minus_digit {d : Char} {ds : List Char} (hd : Text.isDigit d = true) :
    readWord ('-' :: d :: ds) = none := by
  have hword : 'I' ≠ d := (Numeral.isDigit_ne hd (by decide)).symm
  simp [readWord, words, hword]

/-- A number is all that the reader takes, and no word. -/
theorem readPlain_of_spelled (h : Numeral.Spelled cs n) :
    readPlain cs = (ofNumeral n).map fun v => (v, []) := by
  have hword : readWord cs = none := by
    rcases h.head with ⟨d, ds, rfl, hd⟩ | ⟨d, ds, rfl, hd⟩
    · exact readWord_digit hd
    · exact readWord_minus_digit hd
  simp only [readPlain, hword, Numeral.scan_of_spelled h]

/-- A text that is a number has the value of the number. -/
theorem read_of_spelled (h : Numeral.Spelled cs n) : read cs = ofNumeral n := by
  have hvalue : readValue maxDepth (skipSpace cs) = readPlain cs := by
    rcases h.head with ⟨d, ds, rfl, hd⟩ | ⟨d, ds, rfl, hd⟩
    · rw [skipSpace_digit hd, readValue_digit hd]
    · rfl
  have hmark : ∀ rest, cs ≠ '\uFEFF' :: rest := by
    rintro rest rfl
    rcases h.head with ⟨d, ds, heq, hd⟩ | ⟨d, ds, heq, -⟩
    · exact Numeral.isDigit_ne hd (by decide) (List.cons.inj heq).1.symm
    · exact absurd (List.cons.inj heq).1 (by decide)
  rw [read.eq_2 cs fun rest => hmark rest, hvalue, readPlain_of_spelled h]
  cases ofNumeral n with
  | error fault => rfl
  | ok v => rfl

end Json

/-! ## Texts without too many digits -/

/-- The digits of the whole part are digits of the text. -/
theorem Numeral.Spelled.length_whole_le (h : Numeral.Spelled cs n) :
    n.whole.length ≤ cs.countP Text.isDigit := by
  obtain ⟨-, hwhole, hdigits⟩ := Numeral.scan_some (Numeral.scan_of_spelled h)
  calc n.whole.length = n.whole.countP Text.isDigit := (List.countP_eq_length.mpr hdigits).symm
    _ ≤ cs.countP Text.isDigit := hwhole.sublist.countP_le

/-- A number with a value: neither an infinity nor the value that is no number. -/
def Value.isFiniteNumber : Value → Bool
  | .int _ => true
  | .real x => x.isFinite
  | _ => false

/-- Where the text is a number, the reader of JSON has a value for it, and that is the value
of the text, unless it is infinite. -/
theorem Value.numberOf_of_spelled {s : String} (h : Numeral.Spelled (Text.trim s.toList) n)
    (hdigits : n.whole.length ≤ maxDigits) :
    ∃ v, Json.ofNumeral n = .ok v
      ∧ numberOf s = .ok (if v.isFiniteNumber then v else .str s) := by
  have htext : Numeral.ofText? (Text.trim s.toList) = some n := Numeral.ofText?_eq_some_iff.mpr h
  simp only [numberOf, htext, Json.ofNumeral]
  cases n.isIntegral with
  | false => exact ⟨.real n.toBinary64, rfl, rfl⟩
  | true =>
      cases hi : n.toInt? with
      | none => exact absurd (Numeral.toInt?_eq_none_iff.mp hi) (Nat.not_lt.mpr hdigits)
      | some i => exact ⟨.int i, rfl, rfl⟩

/-- A text with no more than `maxDigits` digits that is a number, white space around it
allowed, is coerced to the value that the reader of JSON has for it, if that is finite; every
other one is left as it is. -/
theorem Value.coerce_number_str {s : String} (h : s.toList.countP Text.isDigit ≤ maxDigits) :
    (Numeral.IsNumber (Text.trim s.toList) →
        ∃ v, Json.read (Text.trim s.toList) = .ok v
          ∧ coerce .number (.str s) = .ok (if v.isFiniteNumber then v else .str s))
      ∧ (¬ Numeral.IsNumber (Text.trim s.toList) →
          coerce .number (.str s) = .ok (.str s)) := by
  constructor
  · rintro ⟨n, hn⟩
    have hdigits : n.whole.length ≤ maxDigits :=
      calc n.whole.length ≤ (Text.trim s.toList).countP Text.isDigit := hn.length_whole_le
        _ ≤ s.toList.countP Text.isDigit := (Text.trim_isInfix s.toList).sublist.countP_le
        _ ≤ maxDigits := h
    obtain ⟨v, hv, hnumber⟩ := numberOf_of_spelled hn hdigits
    exact ⟨v, (Json.read_of_spelled hn).trans hv, hnumber⟩
  · intro hnot
    have htext : Numeral.ofText? (Text.trim s.toList) = none :=
      Numeral.ofText?_eq_none_iff.mpr hnot
    simp only [coerce, numberOf, htext]

/-- The blank in front is none of JSON's; the value is a floating point number. -/
theorem Value.coerce_number_str_exponent :
    ("\u00A0-12.50e+1 ".toList.countP Text.isDigit ≤ maxDigits
        ∧ Numeral.IsNumber (Text.trim "\u00A0-12.50e+1 ".toList))
      ∧ ∃ v, Json.read (Text.trim "\u00A0-12.50e+1 ".toList) = .ok v
          ∧ coerce .number (.str "\u00A0-12.50e+1 ")
              = .ok (if v.isFiniteNumber then v else .str "\u00A0-12.50e+1 ") := by
  have hdigits : "\u00A0-12.50e+1 ".toList.countP Text.isDigit ≤ maxDigits := by decide
  have hnumber : Numeral.IsNumber (Text.trim "\u00A0-12.50e+1 ".toList) := by
    refine ⟨⟨true, ['1', '2'], some ['5', '0'], some 1⟩, Numeral.ofText?_eq_some_iff.mp ?_⟩
    decide
  exact ⟨⟨hdigits, hnumber⟩, (coerce_number_str hdigits).1 hnumber⟩

end TypedPrompt
