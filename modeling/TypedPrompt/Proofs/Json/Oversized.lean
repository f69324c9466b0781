/-
# `Proofs.Json.Oversized` — integers that are not read

An integer with more than `maxDigits` digits is the one thing in a text that ends the
reading without a place where the text goes wrong.  Its digits stand in the text, on
end (`LongRun`), so that no other text is refused for it (`longRun_of_read`).

`Careful` says this of what comes of reading, together with what later steps need: the
rest is a rest of the text, and what was read has a property.  The property that is
kept here is that the value stays within bounds (`Bounded`): no string is longer than
the text it was read from, at the top of the value or as an entry of an object, and all
integers can be written again.
-/
import TypedPrompt.Json.Reader
import TypedPrompt.Proofs.Json.Writing
import TypedPrompt.Proofs.Reading.Tokens

namespace TypedPrompt

/-! ## Runs of digits -/

/-- More than `maxDigits` digits stand in the text, on end. -/
def LongRun (cs : List Char) : Prop :=
  ∃ ds, ds <:+: cs ∧ (∀ c ∈ ds, Text.isDigit c = true) ∧ maxDigits < ds.length

theorem LongRun.mono {cs ds : List Char} (h : LongRun cs) (hs : cs <:+: ds) : LongRun ds := by
  obtain ⟨run, hrun, hdigits, hlength⟩ := h
  exact ⟨run, hrun.trans hs, hdigits, hlength⟩

theorem LongRun.lt_length {cs : List Char} (h : LongRun cs) : maxDigits < cs.length := by
  obtain ⟨run, hrun, -, hlength⟩ := h
  exact Nat.lt_of_lt_of_le hlength hrun.length_le

namespace Numeral

variable {cs rest whole : List Char} {n : Numeral}

theorem toInt?_eq_none_iff : n.toInt? = none ↔ maxDigits < n.whole.length := by
  simp [toInt?]

theorem scanWhole_some (h : scanWhole cs = some (whole, rest)) :
    whole ++ rest = cs ∧ ∀ c ∈ whole, Text.isDigit c = true := by
  unfold scanWhole at h
  split at h
  · cases h
    exact ⟨rfl, by simp [Text.isDigit]⟩
  · next c cs _ =>
      split at h
      · obtain ⟨rfl, rfl⟩ := Prod.mk.inj (Option.some.inj h)
        exact ⟨List.takeWhile_append_dropWhile, spanDigits_all (c :: cs)⟩
      · cases h
  · cases h

theorem spanDigits_suffix {ds : List Char} (h : spanDigits cs = (ds, rest)) : rest <:+ cs := by
  obtain ⟨rfl, rfl⟩ := Prod.mk.inj h
  exact List.dropWhile_suffix _

theorem scanFraction_suffix (cs : List Char) : (scanFraction cs).2 <:+ cs := by
  unfold scanFraction
  split
  · next rest =>
      split
      · exact List.suffix_refl _
      · next hs => exact (spanDigits_suffix hs).trans (List.suffix_cons _ _)
  · exact List.suffix_refl _

theorem scanSigned_suffix {e : Int} (h : scanSigned cs = some (e, rest)) : rest <:+ cs := by
  simp only [scanSigned] at h
  split at h
  · cases h
  · next ds rest' _ hspan =>
      obtain rfl : rest' = rest := (Prod.mk.inj (Option.some.inj h)).2
      refine (spanDigits_suffix hspan).trans ?_
      split
      · exact List.suffix_cons _ _
      · exact List.suffix_cons _ _
      · exact List.suffix_refl _

theorem scanExponent_suffix (cs : List Char) : (scanExponent cs).2 <:+ cs := by
  unfold scanExponent
  split
  · next c rest =>
      split
      · split
        · next e rest' hs => exact (scanSigned_suffix hs).trans (List.suffix_cons _ _)
        · exact List.suffix_refl _
      · exact List.suffix_refl _
  · exact List.suffix_refl _

theorem scanUnsigned_some {negative : Bool} (h : scanUnsigned negative cs = some (n, rest)) :
    rest <:+ cs ∧ n.whole <+: cs ∧ ∀ c ∈ n.whole, Text.isDigit c = true := by
  obtain ⟨⟨whole, afterWhole⟩, hw, hn⟩ := Option.bind_eq_some_iff.mp h
  obtain ⟨rfl, hdigits⟩ := scanWhole_some hw
  obtain ⟨rfl, rfl⟩ := Prod.mk.inj (Option.some.inj hn)
  refine ⟨?_, List.prefix_append _ _, hdigits⟩
  exact (scanExponent_suffix _).trans ((scanFraction_suffix _).trans (List.suffix_append _ _))

/-- The digits of a numeral stand in the text, on end. -/
theorem scan_some (h : scan cs = some (n, rest)) :
    rest <:+ cs ∧ n.whole <:+: cs ∧ ∀ c ∈ n.whole, Text.isDigit c = true := by
  unfold scan at h
  split at h
  · next cs =>
      obtain ⟨hr, hw, hdigits⟩ := scanUnsigned_some h
      exact ⟨hr.trans (List.suffix_cons _ _), hw.isInfix.trans (List.suffix_cons _ _).isInfix,
        hdigits⟩
  · obtain ⟨hr, hw, hdigits⟩ := scanUnsigned_some h
    exact ⟨hr, hw.isInfix, hdigits⟩

theorem longRun_of_scan (h : scan cs = some (n, rest)) (hlong : maxDigits < n.whole.length) :
    LongRun cs := by
  obtain ⟨-, hw, hdigits⟩ := scan_some h
  exact ⟨n.whole, hw, hdigits, hlong⟩

/-- Digits alone are a numeral as a whole, unless they begin with a zero. -/
theorem scan_digits {d : Char} {ds : List Char} (hd : Text.isDigit d = true) (hzero : d ≠ '0')
    (hds : ∀ c ∈ ds, Text.isDigit c = true) :
    scan (d :: ds) = some (⟨false, d :: ds, none, none⟩, []) := by
  have hspan : spanDigits (d :: ds) = (d :: ds, []) :=
    spanDigits_of_digits (List.forall_mem_cons.mpr ⟨hd, hds⟩)
  have hwhole : scanWhole (d :: ds) = some (d :: ds, []) := by
    unfold scanWhole
    split <;> simp_all
  unfold scan
  split
  · simp_all [Text.isDigit]
  · simp [scanUnsigned, hwhole, scanFraction, scanExponent]

end Numeral

namespace Json

/-! ## Reading with care -/

section Careful

variable {α β : Type} {text cs : List Char} {P : α → Prop} {Q : β → Prop}

/-- What comes of reading: a rest of the text and something with a property, or else
a fault, which is the one about integers only if the text has a long run of digits. -/
def Careful (text : List Char) (P : α → Prop) : Except Fault (α × List Char) → Prop
  | .ok (a, rest) => rest <:+ text ∧ P a
  | .error fault => fault = .oversizedInteger → LongRun text

variable {r : Except Fault (α × List Char)}

theorem Careful.mono {P' : α → Prop} (h : Careful cs P r) (hs : cs <:+ text)
    (hP : ∀ a, P a → P' a) : Careful text P' r := by
  cases r with
  | ok p => exact ⟨h.1.trans hs, hP _ h.2⟩
  | error fault => exact fun hf => (h hf).mono hs.isInfix

theorem Careful.bind {f : α × List Char → Except Fault (β × List Char)} (h : Careful text P r)
    (hf : ∀ a rest, rest <:+ text → P a → Careful text Q (f (a, rest))) :
    Careful text Q (r >>= f) := by
  cases r with
  | ok p => exact hf p.1 p.2 h.1 h.2
  | error fault => exact h

theorem Careful.map {f : α → β} (h : Careful text P r) (hf : ∀ a, P a → Q (f a)) :
    Careful text Q (r.map fun (a, rest) => (f a, rest)) := by
  cases r with
  | ok p => exact ⟨h.1, hf _ h.2⟩
  | error fault => exact h

theorem Careful.fault {cause : Cause} {place : List Char} :
    Careful text P (.error (.syntactic cause place)) := nofun

/-- The reader is careful at every rest of the text. -/
def StaysIn (text : List Char) (r : Reader α) (P : α → Prop) : Prop :=
  ∀ cs, cs <:+ text → Careful text P (r cs)

end Careful

theorem skipSpace_suffix (cs : List Char) : skipSpace cs <:+ cs := List.dropWhile_suffix _

/-- Behind a mark with white space in front of it. -/
theorem suffix_of_skipSpace {text cs rest : List Char} {mark : Char} (hcs : cs <:+ text)
    (h : skipSpace cs = mark :: rest) : rest <:+ text := by
  have hmark := (skipSpace_suffix cs).trans hcs
  rw [h] at hmark
  exact (List.suffix_cons mark rest).trans hmark

/-! ## Strings, words and numbers -/

/-- Not longer than some text. -/
def NoLonger (cs out : List Char) : Prop := out.length ≤ cs.length

/-- Behind an escape or a single character, `front` being what it takes besides the first
character. -/
theorem Careful.consRead {rest : List Char} {r : Except Fault (List Char × List Char)} {c d : Char}
    (front : List Char) (h : Careful rest (NoLonger rest) r) :
    Careful (d :: (front ++ rest)) (NoLonger (d :: (front ++ rest))) (consRead c r) := by
  have hm : Careful (d :: (front ++ rest)) (NoLonger rest) r :=
    h.mono ((List.suffix_append front rest).trans (List.suffix_cons d _)) fun _ h => h
  refine hm.map fun out hout => ?_
  simp only [NoLonger, List.length_cons, List.length_append] at hout ⊢
  omega

theorem readString_careful (opening cs : List Char) :
    Careful cs (NoLonger cs) (readString opening cs) := by
  fun_induction readString opening cs with
  | case1 | case3 | case8 | case9 | case11 | case12 | case13 => exact .fault
  | case2 rest => exact ⟨List.suffix_cons _ _, Nat.zero_le _⟩
  | case4 => exact Careful.consRead [_, _, _, _, _, _, _, _, _, _, _] ‹_›
  | case5 | case6 | case7 => exact Careful.consRead [_, _, _, _, _] ‹_›
  | case10 => exact Careful.consRead [_] ‹_›
  | case14 => exact Careful.consRead [] ‹_›

/-- No string in the value is longer than so many characters, at the top or in an entry. -/
def ShortStrings (bound : Nat) : Value → Prop
  | .str s => s.length ≤ bound
  | .obj es => ∀ name s, (name, Value.str s) ∈ es → s.length ≤ bound
  | _ => True

/-- The value as it is read from a text with so many characters. -/
structure Bounded (bound : Nat) (v : Value) : Prop where
  shortStrings : ShortStrings bound v
  writable : ¬ v.HoldsOverlong

theorem Bounded.mono {bound bound' : Nat} {v : Value} (h : Bounded bound v)
    (hb : bound ≤ bound') : Bounded bound' v := by
  refine ⟨?_, h.writable⟩
  have hshort := h.shortStrings
  cases v with
  | str s => exact Nat.le_trans hshort hb
  | obj es => exact fun name s hmem => Nat.le_trans (hshort name s hmem) hb
  | _ => trivial

theorem bounded_int {i : Int} (h : isOverlong i = false) (bound : Nat) : Bounded bound (.int i) :=
  ⟨trivial, by simp [Value.HoldsOverlong, Value.integers, h]⟩

theorem bounded_real (x : Binary64) (bound : Nat) : Bounded bound (.real x) :=
  ⟨trivial, Value.not_holdsOverlong_of_integers rfl⟩

theorem bounded_arr {vs : List Value} {bound : Nat} (h : ∀ v ∈ vs, ¬ v.HoldsOverlong) :
    Bounded bound (.arr vs) :=
  ⟨trivial, fun hlong => have ⟨v, hv, hv'⟩ := Value.holdsOverlong_arr_iff.mp hlong; h v hv hv'⟩

theorem readWord_some {cs rest : List Char} {v : Value} (h : readWord cs = some (v, rest))
    (bound : Nat) : rest <:+ cs ∧ Bounded bound v := by
  obtain ⟨⟨word, w⟩, hword, hw⟩ := List.exists_of_findSome?_eq_some h
  simp only at hw
  split at hw
  · cases hw
    refine ⟨List.drop_suffix _ _, ?_⟩
    simp only [words, List.mem_cons, List.not_mem_nil, or_false, Prod.mk.injEq] at hword
    rcases hword with ⟨-, rfl⟩ | ⟨-, rfl⟩ | ⟨-, rfl⟩ | ⟨-, rfl⟩ | ⟨-, rfl⟩ | ⟨-, rfl⟩ <;>
      exact ⟨trivial, Value.not_holdsOverlong_of_integers rfl⟩
  · cases hw

theorem readPlain_staysIn (text : List Char) :
    StaysIn text readPlain (Bounded text.length) := by
  intro cs hcs
  unfold readPlain
  split
  · next hword =>
      obtain ⟨hrest, hshort⟩ := readWord_some hword text.length
      exact ⟨hrest.trans hcs, hshort⟩
  · split
    · next n rest hscan =>
        obtain ⟨hrest, -, hdigits⟩ := Numeral.scan_some hscan
        unfold ofNumeral
        split
        · cases hi : n.toInt? with
          | some i => exact ⟨hrest.trans hcs, bounded_int (isOverlong_of_toInt? hdigits hi) _⟩
          | none =>
              intro _
              have hlong : maxDigits < n.whole.length := Numeral.toInt?_eq_none_iff.mp hi
              exact (Numeral.longRun_of_scan hscan hlong).mono hcs.isInfix
        · exact ⟨hrest.trans hcs, bounded_real _ _⟩
    · exact .fault

/-! ## Arrays and objects -/

section Containers

variable {text : List Char} {item : Reader Value}
  (hitem : StaysIn text item (Bounded text.length))

include hitem

theorem readItems_staysIn (fuel : Nat) :
    StaysIn text (readItems item fuel) fun vs => ∀ v ∈ vs, ¬ v.HoldsOverlong := by
  induction fuel with
  | zero => exact fun _ _ => .fault
  | succ fuel ih =>
      intro cs hcs
      refine (hitem cs hcs).bind fun v rest hrest hv => ?_
      dsimp only
      split
      · next heq =>
          exact ⟨suffix_of_skipSpace hrest heq, List.forall_mem_singleton.mpr hv.writable⟩
      · next rest' heq =>
          have hbehind := (skipSpace_suffix rest').trans (suffix_of_skipSpace hrest heq)
          exact (ih _ hbehind).bind fun vs rest'' hrest'' hvs =>
            ⟨hrest'', List.forall_mem_cons.mpr ⟨hv.writable, hvs⟩⟩
      · exact .fault

theorem readArray_staysIn : StaysIn text (readArray item) (Bounded text.length) := by
  intro cs hcs
  unfold readArray
  split
  · next heq => exact ⟨suffix_of_skipSpace hcs heq, bounded_arr (List.forall_mem_nil _)⟩
  · have hspace := (skipSpace_suffix cs).trans hcs
    exact (readItems_staysIn hitem _ _ hspace).map fun _ hvs => bounded_arr hvs

theorem readEntry_staysIn :
    StaysIn text (readEntry item) fun entry => Bounded text.length entry.2 := by
  intro cs hcs
  unfold readEntry
  split
  · next cs =>
      have hinside := (List.suffix_cons _ _).trans hcs
      have hname := (readString_careful ('"' :: cs) cs).mono hinside fun _ _ => trivial
      refine hname.bind fun name rest hrest _ => ?_
      dsimp only
      split
      · next rest' heq =>
          have hbehind := (skipSpace_suffix rest').trans (suffix_of_skipSpace hrest heq)
          exact (hitem _ hbehind).bind fun v rest'' hrest'' hv => ⟨hrest'', hv⟩
      · exact .fault
  · exact .fault

omit hitem in
/-- Putting in a value that is within the bounds keeps an object within them. -/
theorem bounded_put {bound : Nat} {es : Entries Value} {v : Value} (name : String)
    (hes : Bounded bound (.obj es)) (hv : Bounded bound v) :
    Bounded bound (.obj (es.put name v)) := by
  constructor
  · intro key s hmem
    rcases Entries.mem_put hmem with hmem | rfl
    · exact hes.shortStrings key s hmem
    · exact hv.shortStrings
  · intro hlong
    obtain ⟨⟨key, u⟩, hmem, hu⟩ := Value.holdsOverlong_obj_iff.mp hlong
    rcases Entries.mem_put hmem with hmem | rfl
    · exact hes.writable (Value.holdsOverlong_obj_iff.mpr ⟨(key, u), hmem, hu⟩)
    · exact hv.writable hu

theorem readEntries_staysIn (fuel : Nat) {es : Entries Value}
    (hes : Bounded text.length (.obj es)) :
    StaysIn text (readEntries item fuel es) fun es => Bounded text.length (.obj es) := by
  induction fuel generalizing es with
  | zero => exact fun _ _ => .fault
  | succ fuel ih =>
      intro cs hcs
      refine (readEntry_staysIn hitem cs hcs).bind fun entry rest hrest hentry => ?_
      have hput := bounded_put entry.1 hes hentry
      dsimp only
      split
      · next heq => exact ⟨suffix_of_skipSpace hrest heq, hput⟩
      · next rest' heq =>
          exact ih hput _ ((skipSpace_suffix rest').trans (suffix_of_skipSpace hrest heq))
      · exact .fault

theorem readObject_staysIn : StaysIn text (readObject item) (Bounded text.length) := by
  intro cs hcs
  have hempty : Bounded text.length (.obj []) :=
    ⟨fun _ _ h => absurd h List.not_mem_nil, Value.not_holdsOverlong_of_integers rfl⟩
  unfold readObject
  split
  · next heq => exact ⟨suffix_of_skipSpace hcs heq, hempty⟩
  · have hspace := (skipSpace_suffix cs).trans hcs
    exact (readEntries_staysIn hitem _ hempty _ hspace).map fun _ h => h

end Containers

/-- A string behind its opening quote, as a value. -/
theorem readString_value {text rest : List Char} (hrest : '"' :: rest <:+ text) :
    Careful text (Bounded text.length) ((readString ('"' :: rest) rest).map
      fun (cs, rest') => (.str (String.ofList cs), rest')) := by
  have hinside := (List.suffix_cons _ _).trans hrest
  have hread := (readString_careful ('"' :: rest) rest).mono hinside fun _ h => h
  refine hread.map (f := fun cs => Value.str (String.ofList cs)) fun cs hcs => ?_
  have hlength : cs.length ≤ text.length := Nat.le_trans hcs hinside.length_le
  exact ⟨by simpa [ShortStrings] using hlength, Value.not_holdsOverlong_of_integers rfl⟩

theorem readValue_staysIn (text : List Char) (depth : Nat) :
    StaysIn text (readValue depth) (Bounded text.length) := by
  induction depth using Nat.strongRecOn with
  | ind depth ih =>
      intro cs hcs
      unfold readValue
      split
      · exact readString_value hcs
      · exact nofun
      · next depth rest =>
          exact readArray_staysIn (ih depth depth.lt_succ_self) rest
            ((List.suffix_cons _ _).trans hcs)
      · exact nofun
      · next depth rest =>
          exact readObject_staysIn (ih depth depth.lt_succ_self) rest
            ((List.suffix_cons _ _).trans hcs)
      · exact readPlain_staysIn text _ hcs

/-! ## Whole texts -/

theorem read_careful (cs : List Char) :
    (∀ v, read cs = .ok v → Bounded cs.length v)
      ∧ (read cs = .error .oversizedInteger → LongRun cs) := by
  have hread := readValue_staysIn cs maxDepth _ (skipSpace_suffix cs)
  unfold read
  split
  · exact ⟨nofun, nofun⟩
  · cases hv : readValue maxDepth (skipSpace cs) with
    | error fault =>
        rw [hv] at hread
        exact ⟨nofun, fun h => hread (Except.error.inj h)⟩
    | ok p =>
        obtain ⟨v, rest⟩ := p
        rw [hv] at hread
        simp only [Bind.bind, Except.bind]
        split
        · exact ⟨fun w hw => Except.ok.inj hw ▸ hread.2, nofun⟩
        · exact ⟨nofun, nofun⟩

/-- A text is refused for an integer only if it has a long run of digits. -/
theorem longRun_of_read {cs : List Char} (h : read cs = .error .oversizedInteger) : LongRun cs :=
  (read_careful cs).2 h

/-- No string is longer than the text it is read from, and no integer too long to be written. -/
theorem bounded_of_read {cs : List Char} {v : Value} (h : read cs = .ok v) :
    Bounded cs.length v := (read_careful cs).1 v h

/-! ## Runs of digits as texts -/

section Digits

variable {d : Char} {ds : List Char} (hd : Text.isDigit d = true) (hzero : d ≠ '0')
  (hds : ∀ c ∈ ds, Text.isDigit c = true)

include hd

theorem readWord_digit : readWord (d :: ds) = none := by
  have ne : ∀ x, Text.isDigit x = false → ¬ x = d := by
    rintro x hx rfl
    simp [hx] at hd
  simp [readWord, words, ne 'n' rfl, ne 't' rfl, ne 'f' rfl, ne 'N' rfl, ne 'I' rfl, ne '-' rfl]

theorem readValue_digit (depth : Nat) : readValue depth (d :: ds) = readPlain (d :: ds) := by
  unfold readValue
  split <;> simp_all [Text.isDigit]

theorem skipSpace_digit : skipSpace (d :: ds) = d :: ds := by
  refine List.dropWhile_cons_of_neg ?_
  simp only [isSpace, Bool.or_eq_true, beq_iff_eq]
  rintro (((rfl | rfl) | rfl) | rfl) <;> simp [Text.isDigit] at hd

include hzero hds in
/-- A text of more than `maxDigits` digits is refused, unless it begins with a zero. -/
theorem read_digits (hlong : maxDigits ≤ ds.length) :
    read (d :: ds) = .error .oversizedInteger := by
  have hrefused : (⟨false, d :: ds, none, none⟩ : Numeral).toInt? = none :=
    Numeral.toInt?_eq_none_iff.mpr (Nat.lt_succ_of_le hlong)
  have hplain : readPlain (d :: ds) = .error .oversizedInteger := by
    simp [readPlain, readWord_digit hd, Numeral.scan_digits hd hzero hds, ofNumeral,
      Numeral.isIntegral, hrefused, Except.map]
  unfold read
  split
  · simp_all [Text.isDigit]
  · simp [skipSpace_digit hd, readValue_digit hd, hplain, Bind.bind, Except.bind]

end Digits

end Json

end TypedPrompt
