/-
# `Proofs.Number.Grammar` — how a number is written

The grammar `-? (0 | [1-9] [0-9]*) (. [0-9]+)? ([eE] [+-]? [0-9]+)?` on lists of
characters, each part with what it stands for.  `Spelled cs n` says that the characters
are a number of this grammar and that `n` is what they say.

The scanner takes its parts from the left, each as far as it goes, and never goes back.
That loses nothing: a digit cannot follow the digits in front of it as the beginning of
another part, nor a point or an exponent mark what is left of them.  So a text is scanned
as a whole exactly if it is a number of the grammar (`ofText?_eq_some_iff`).
-/
import TypedPrompt.Proofs.Json.Oversized

namespace TypedPrompt.Numeral

/-! ## The grammar -/

/-- `[0-9]+` -/
structure IsDigits (ds : List Char) : Prop where
  ne_nil : ds ≠ []
  digits : ∀ c ∈ ds, Text.isDigit c = true

/-- `-?`, and whether it is there -/
inductive SpelledSign : List Char → Bool → Prop
  | none : SpelledSign [] false
  | minus : SpelledSign ['-'] true

/-- `0 | [1-9] [0-9]*` -/
inductive IsWhole : List Char → Prop
  | zero : IsWhole ['0']
  | digits {d : Char} {ds : List Char} : Text.isDigit d = true → d ≠ '0' →
      (∀ c ∈ ds, Text.isDigit c = true) → IsWhole (d :: ds)

/-- `(. [0-9]+)?`, and the digits -/
inductive SpelledFraction : List Char → Option (List Char) → Prop
  | none : SpelledFraction [] none
  | some {ds : List Char} : IsDigits ds → SpelledFraction ('.' :: ds) (some ds)

/-- `[+-]? [0-9]+`, and the integer -/
inductive SpelledInteger : List Char → Int → Prop
  | plain {ds : List Char} : IsDigits ds → SpelledInteger ds (natOfDigits ds)
  | plus {ds : List Char} : IsDigits ds → SpelledInteger ('+' :: ds) (natOfDigits ds)
  | minus {ds : List Char} : IsDigits ds → SpelledInteger ('-' :: ds) (-natOfDigits ds)

/-- `([eE] [+-]? [0-9]+)?`, and the integer -/
inductive SpelledExponent : List Char → Option Int → Prop
  | none : SpelledExponent [] none
  | some {mark : Char} {cs : List Char} {e : Int} : mark = 'e' ∨ mark = 'E' →
      SpelledInteger cs e → SpelledExponent (mark :: cs) (some e)

/-- A number of the grammar, and its parts. -/
inductive Spelled : List Char → Numeral → Prop
  | intro {sign whole cs ds : List Char} {negative : Bool} {fraction : Option (List Char)}
      {exponent : Option Int} : SpelledSign sign negative → IsWhole whole →
      SpelledFraction cs fraction → SpelledExponent ds exponent →
      Spelled (sign ++ (whole ++ (cs ++ ds))) ⟨negative, whole, fraction, exponent⟩

variable {cs ds rest whole : List Char} {n : Numeral} {negative : Bool}
  {fraction : Option (List Char)} {exponent : Option Int} {e : Int}

/-! ## What the parts begin with -/

theorem isDigit_ne {c d : Char} (hc : Text.isDigit c = true) (hd : Text.isDigit d = false) :
    c ≠ d := by
  rintro rfl
  rw [hc] at hd
  cases hd

theorem IsDigits.head (h : IsDigits ds) : ∃ d ds', ds = d :: ds' ∧ Text.isDigit d = true := by
  cases ds with
  | nil => exact absurd rfl h.ne_nil
  | cons d ds => exact ⟨d, ds, rfl, h.digits d List.mem_cons_self⟩

theorem IsWhole.isDigits (h : IsWhole whole) : IsDigits whole := by
  cases h with
  | zero => exact ⟨by simp, by simp [Text.isDigit]⟩
  | digits hd _ hds => exact ⟨by simp, List.forall_mem_cons.mpr ⟨hd, hds⟩⟩

theorem SpelledExponent.head (h : SpelledExponent ds exponent) :
    ∀ c ∈ ds.head?, Text.isDigit c = false ∧ c ≠ '.' := by
  cases h with
  | none => simp
  | some hmark _ => rcases hmark with rfl | rfl <;> simp [Text.isDigit]

/-- No digit follows the digits in front of the point. -/
theorem SpelledFraction.head (h : SpelledFraction cs fraction)
    (hx : SpelledExponent ds exponent) : ∀ c ∈ (cs ++ ds).head?, Text.isDigit c = false := by
  cases h with
  | none => exact fun c hc => (hx.head c hc).1
  | some _ => simp [Text.isDigit]

/-! ## A number of the grammar is scanned -/

theorem spanDigits_of_isDigits (h : IsDigits ds)
    (hrest : ∀ c ∈ rest.head?, Text.isDigit c = false) :
    spanDigits (ds ++ rest) = (ds, rest) :=
  spanDigits_of_all h.digits hrest

theorem scanWhole_of_isWhole (h : IsWhole whole)
    (hrest : ∀ c ∈ rest.head?, Text.isDigit c = false) :
    scanWhole (whole ++ rest) = some (whole, rest) := by
  have hspan := spanDigits_of_isDigits h.isDigits hrest
  cases h with
  | zero => rfl
  | @digits d ds hd hzero _ =>
      rw [List.cons_append, scanWhole]
      · rw [if_pos hd]
        exact congrArg some hspan
      · exact hzero

theorem scanFraction_of_spelled (h : SpelledFraction cs fraction)
    (hx : SpelledExponent ds exponent) : scanFraction (cs ++ ds) = (fraction, ds) := by
  cases h with
  | none =>
      rw [List.nil_append, scanFraction]
      rintro rest rfl
      exact (hx.head '.' (by simp)).2 rfl
  | some hds =>
      have hspan := spanDigits_of_isDigits hds fun c hc => (hx.head c hc).1
      rw [List.cons_append, scanFraction, hspan]
      obtain ⟨d, ds', rfl, -⟩ := hds.head
      rfl

theorem scanSigned_of_spelled (h : SpelledInteger cs e) : scanSigned cs = some (e, []) := by
  have hspan : ∀ {ds : List Char}, IsDigits ds → spanDigits ds = (ds, []) :=
    fun h => spanDigits_of_digits h.digits
  cases h with
  | plain hds =>
      obtain ⟨d, ds, rfl, hd⟩ := hds.head
      have hminus : d ≠ '-' := isDigit_ne hd (by decide)
      have hplus : d ≠ '+' := isDigit_ne hd (by decide)
      simp [scanSigned, hminus, hplus, hspan hds]
  | plus hds =>
      obtain ⟨d, ds, rfl, hd⟩ := hds.head
      simp [scanSigned, hspan hds]
  | minus hds =>
      obtain ⟨d, ds, rfl, hd⟩ := hds.head
      simp [scanSigned, hspan hds]

theorem scanExponent_of_spelled (h : SpelledExponent ds exponent) :
    scanExponent ds = (exponent, []) := by
  cases h with
  | none => rfl
  | some hmark he => rw [scanExponent, if_pos hmark, scanSigned_of_spelled he]

theorem scan_of_spelled (h : Spelled cs n) : scan cs = some (n, []) := by
  cases h with
  | @intro sign whole cs ds negative fraction exponent hs hw hf hx =>
      have hunsigned : scanUnsigned negative (whole ++ (cs ++ ds))
          = some (⟨negative, whole, fraction, exponent⟩, []) := by
        simp only [scanUnsigned, scanWhole_of_isWhole hw (hf.head hx), Option.bind_eq_bind,
          Option.bind_some, scanFraction_of_spelled hf hx, scanExponent_of_spelled hx]
      cases hs with
      | minus => exact hunsigned
      | none =>
          obtain ⟨d, ds', rfl, hd⟩ := hw.isDigits.head
          rw [List.nil_append, List.cons_append, scan]
          · exact hunsigned
          · exact fun _ h => isDigit_ne hd (by decide) (List.cons.inj h).1

/-! ## What is scanned is a number of the grammar -/

theorem isDigits_of_spanDigits (h : spanDigits cs = (ds, rest)) (hne : ds ≠ []) :
    IsDigits ds ∧ ds ++ rest = cs := by
  obtain ⟨rfl, rfl⟩ := Prod.mk.inj h
  exact ⟨⟨hne, spanDigits_all cs⟩, List.takeWhile_append_dropWhile⟩

theorem isWhole_of_scanWhole (h : scanWhole cs = some (whole, rest)) :
    IsWhole whole ∧ whole ++ rest = cs := by
  have hparts := scanWhole_some h
  refine ⟨?_, hparts.1⟩
  unfold scanWhole at h
  split at h
  · cases h
    exact .zero
  · next c cs hzero =>
      split at h
      · next hc =>
          have hspan : (c :: cs).takeWhile Text.isDigit = whole :=
            (Prod.mk.inj (Option.some.inj h)).1
          rw [List.takeWhile_cons_of_pos hc] at hspan
          subst hspan
          exact .digits hc hzero (List.forall_mem_cons.mp hparts.2).2
      · cases h
  · cases h

theorem spelled_of_scanFraction (h : scanFraction cs = (fraction, rest)) :
    ∃ ds, SpelledFraction ds fraction ∧ ds ++ rest = cs := by
  unfold scanFraction at h
  split at h
  · next tail =>
      split at h
      · cases h
        exact ⟨[], .none, rfl⟩
      · next ds rest' hne hspan =>
          obtain ⟨rfl, rfl⟩ := Prod.mk.inj h
          obtain ⟨hds, happend⟩ := isDigits_of_spanDigits hspan fun h => hne (h ▸ rfl)
          exact ⟨'.' :: ds, .some hds, by rw [← happend, List.cons_append]⟩
  · cases h
    exact ⟨[], .none, rfl⟩

theorem spelled_of_scanSigned (h : scanSigned cs = some (e, rest)) :
    ∃ ds, SpelledInteger ds e ∧ ds ++ rest = cs := by
  simp only [scanSigned] at h
  split at h
  · cases h
  · next ds rest' hne hspan =>
      obtain ⟨rfl, rfl⟩ := Prod.mk.inj (Option.some.inj h)
      obtain ⟨hds, happend⟩ := isDigits_of_spanDigits hspan fun h => hne (h ▸ rfl)
      split at happend
      · exact ⟨'-' :: ds, .minus hds, congrArg ('-' :: ·) happend⟩
      · exact ⟨'+' :: ds, .plus hds, congrArg ('+' :: ·) happend⟩
      · exact ⟨ds, .plain hds, happend⟩

theorem spelled_of_scanExponent (h : scanExponent cs = (exponent, rest)) :
    ∃ ds, SpelledExponent ds exponent ∧ ds ++ rest = cs := by
  unfold scanExponent at h
  split at h
  · next mark tail =>
      split at h
      · next hmark =>
          split at h
          · next e rest' hs =>
              obtain ⟨rfl, rfl⟩ := Prod.mk.inj h
              obtain ⟨ds, hds, happend⟩ := spelled_of_scanSigned hs
              exact ⟨mark :: ds, .some hmark hds, by rw [← happend, List.cons_append]⟩
          · cases h
            exact ⟨[], .none, rfl⟩
      · cases h
        exact ⟨[], .none, rfl⟩
  · cases h
    exact ⟨[], .none, rfl⟩

theorem spelled_of_scanUnsigned (h : scanUnsigned negative cs = some (n, rest)) {sign : List Char}
    (hs : SpelledSign sign negative) : ∃ ds, Spelled ds n ∧ ds ++ rest = sign ++ cs := by
  obtain ⟨⟨whole, afterWhole⟩, hw, hn⟩ := Option.bind_eq_some_iff.mp h
  obtain ⟨hwhole, rfl⟩ := isWhole_of_scanWhole hw
  dsimp only at hn
  cases hf : scanFraction afterWhole with
  | mk fraction afterFraction =>
      cases hx : scanExponent afterFraction with
      | mk exponent rest' =>
          rw [hf, hx] at hn
          obtain ⟨rfl, rfl⟩ := Prod.mk.inj (Option.some.inj hn)
          obtain ⟨fs, hfs, rfl⟩ := spelled_of_scanFraction hf
          obtain ⟨xs, hxs, rfl⟩ := spelled_of_scanExponent hx
          exact ⟨_, .intro hs hwhole hfs hxs, by simp only [List.append_assoc]⟩

/-- What the scanner takes off the front of a text is a number of the grammar. -/
theorem spelled_of_scan (h : scan cs = some (n, rest)) :
    ∃ ds, Spelled ds n ∧ ds ++ rest = cs := by
  unfold scan at h
  split at h
  · exact spelled_of_scanUnsigned h .minus
  · exact spelled_of_scanUnsigned h .none

/-- A text is a numeral as a whole exactly if it is a number of the grammar. -/
theorem ofText?_eq_some_iff : ofText? cs = some n ↔ Spelled cs n := by
  constructor
  · intro h
    unfold ofText? at h
    split at h
    · next hscan =>
        cases h
        obtain ⟨ds, hds, rfl⟩ := spelled_of_scan hscan
        rwa [List.append_nil]
    · cases h
  · intro h
    rw [ofText?, scan_of_spelled h]

/-- A text is a number of the grammar. -/
def IsNumber (cs : List Char) : Prop := ∃ n, Spelled cs n

theorem ofText?_eq_none_iff : ofText? cs = none ↔ ¬ IsNumber cs := by
  simp only [Option.eq_none_iff_forall_ne_some, ne_eq, ofText?_eq_some_iff, IsNumber, not_exists]

end TypedPrompt.Numeral
