/-
# `Proofs.Schema.Fenced` — a payload in a fenced block

A payload may be wrapped in a fenced block, with any text in front of the block and
behind it.  The text as a whole is then never JSON (`Json.read_of_fence`), so the block
is looked for, and what is found in it is the payload without the white space around it
(`Fence.block?_fenced`).  A block is not searched for another block; but there is no
fence in the payload, so that makes no difference.

`decode_fenced` says that decoding the wrapped payload comes to what decoding the
payload comes to, by another way.

The whole library is imported for the examples, which `cbv` runs by the equations of core
functions that it finds there.
-/
import Mathlib
import TypedPrompt.Proofs.Correspondence
import TypedPrompt.Proofs.Json.Fences
import TypedPrompt.Schema.Decoding
import TypedPrompt.Schema.Predicate

namespace TypedPrompt

/-! ## White space at the ends -/

namespace Text

theorem trim_cons_blank {c : Char} (h : isBlank c = true) (cs : List Char) :
    trim (c :: cs) = trim cs := by
  rw [trim, trimLeft, List.dropWhile_cons_of_pos h]
  rfl

theorem trimRight_append_blank {c : Char} (h : isBlank c = true) (cs : List Char) :
    trimRight (cs ++ [c]) = trimRight cs := by
  rw [trimRight, List.reverse_append, List.reverse_singleton, List.singleton_append,
    List.dropWhile_cons_of_pos h]
  rfl

theorem trim_append_blank {c : Char} (h : isBlank c = true) (cs : List Char) :
    trim (cs ++ [c]) = trim cs := by
  rw [trim, trim, trimLeft, trimLeft, List.dropWhile_append]
  split
  · next hempty =>
      rw [List.dropWhile_cons_of_pos h, List.isEmpty_iff.mp hempty, List.dropWhile_nil]
  · exact trimRight_append_blank h _

end Text

/-! ## Runs of digits -/

theorem not_longRun_nil : ¬ LongRun [] := fun h => absurd h.lt_length (Nat.not_lt_zero _)

theorem longRun_append_cons {a b : List Char} {c : Char} (hc : Text.isDigit c = false)
    (h : LongRun (a ++ c :: b)) : LongRun a ∨ LongRun b := by
  obtain ⟨ds, hds, hdigits, hlength⟩ := h
  have hmem : c ∉ ds := by
    intro hmem
    rw [hdigits c hmem] at hc
    cases hc
  rcases infix_append_cons hmem hds with hleft | hright
  · exact .inl ⟨ds, hleft, hdigits, hlength⟩
  · exact .inr ⟨ds, hright, hdigits, hlength⟩

/-- Other characters in front do not make a run of digits longer. -/
theorem longRun_of_append {cs b : List Char} (hcs : cs.any Text.isDigit = false)
    (h : LongRun (cs ++ b)) : LongRun b := by
  induction cs with
  | nil => exact h
  | cons c cs ih =>
      rw [List.any_cons, Bool.or_eq_false_iff] at hcs
      exact ih hcs.2 ((longRun_append_cons (a := []) hcs.1 h).resolve_left not_longRun_nil)

/-! ## Finding the block -/

namespace Fence

theorem split?_eq_none {cs : List Char} (h : ¬ mark <:+: cs) : split? cs = none := by
  cases hs : split? cs with
  | none => rfl
  | some parts =>
      obtain ⟨before, behind⟩ := parts
      exact absurd ⟨before, behind, by rw [List.append_assoc, split?_append hs]⟩ h

/-- Of two parts with the mark between them the first is split off, if there is no earlier mark. -/
theorem split?_of_first {before : List Char} (h : ¬ mark <:+: before ++ ['\x60', '\x60'])
    (behind : List Char) : split? (before ++ (mark ++ behind)) = some (before, behind) := by
  induction before with
  | nil => rfl
  | cons c before ih =>
      rw [List.cons_append, List.infix_cons_iff, not_or] at h
      have hfront : ¬ mark.isPrefixOf (c :: (before ++ (mark ++ behind))) = true := by
        -- a mark at the front would already stand in `before` with two quotes behind it
        intro hlong
        have hshort : c :: (before ++ ['\x60', '\x60']) <+: c :: (before ++ (mark ++ behind)) :=
          ⟨'\x60' :: behind, by simp [mark]⟩
        exact h.1 (List.prefix_of_prefix_length_le (List.isPrefixOf_iff_prefix.mp hlong) hshort
          (by simp [mark]))
      rw [List.cons_append, split?, if_neg hfront, ih h.2]
      rfl

/-- A payload in a block, with some text in front of it and some behind it. -/
def fenced (before inside behind : List Char) : List Char :=
  before ++ (opening ++ (inside ++ '\n' :: (mark ++ behind)))

variable {before inside : List Char}

theorem opening_infix_fenced (before inside behind : List Char) :
    opening <:+: fenced before inside behind :=
  ⟨before, inside ++ '\n' :: (mark ++ behind), by simp [fenced]⟩

/-- The mark does not stand in a text and two more quotes, if there is no quote in the text. -/
theorem not_mark_infix_of_not_mem (h : '\x60' ∉ before) :
    ¬ mark <:+: before ++ ['\x60', '\x60'] := by
  intro hmark
  have hcount := hmark.sublist.count_le '\x60'
  rw [List.count_append, List.count_eq_zero_of_not_mem h] at hcount
  exact absurd hcount (by decide)

theorem not_mark_infix_line (h : ¬ mark <:+: inside) :
    ¬ mark <:+: '\n' :: (inside ++ ['\n']) ++ ['\x60', '\x60'] := by
  have hline : '\n' ∉ mark := by
    decide
  have heq : '\n' :: (inside ++ ['\n']) ++ ['\x60', '\x60']
      = [] ++ '\n' :: (inside ++ '\n' :: ['\x60', '\x60']) := by
    simp
  rw [heq]
  intro hmark
  rcases infix_append_cons hline hmark with hnil | hbehind
  · exact absurd hnil (by decide)
  · rcases infix_append_cons hline hbehind with hinside | hquotes
    · exact h hinside
    · exact absurd hquotes (by decide)

/-- What is found in the block is the payload without the white space around it. -/
theorem block?_fenced (hbefore : '\x60' ∉ before) (hinside : ¬ mark <:+: inside)
    (behind : List Char) : block? (fenced before inside behind) = some (Text.trim inside) := by
  have hfirst : split? (fenced before inside behind)
      = some (before, label ++ '\n' :: (inside ++ '\n' :: (mark ++ behind))) := by
    have heq : fenced before inside behind
        = before ++ (mark ++ (label ++ '\n' :: (inside ++ '\n' :: (mark ++ behind)))) := by
      simp [fenced, opening]
    rw [heq]
    exact split?_of_first (not_mark_infix_of_not_mem hbefore) _
  have hlabel : dropLabel (label ++ '\n' :: (inside ++ '\n' :: (mark ++ behind)))
      = '\n' :: (inside ++ ['\n']) ++ (mark ++ behind) := by
    simp [dropLabel, label]
  have hsecond := split?_of_first (not_mark_infix_line hinside) behind
  rw [← hlabel] at hsecond
  simp only [block?, hfirst, hsecond, Option.bind_eq_bind, Option.bind_some]
  have hline : Text.isBlank '\n' = true := by
    decide
  rw [Text.trim_cons_blank hline, Text.trim_append_blank hline]

theorem block?_trim (hinside : ¬ mark <:+: inside) : block? (Text.trim inside) = none := by
  have hnone : split? (Text.trim inside) = none :=
    split?_eq_none fun h => hinside (h.trans (Text.trim_isInfix inside))
  rw [block?, hnone]
  rfl

theorem longRun_of_fenced {behind : List Char} (h : LongRun (fenced before inside behind)) :
    LongRun before ∨ LongRun inside ∨ LongRun behind := by
  have hopening : opening.tail.any Text.isDigit = false := by
    decide
  have hmark : mark.any Text.isDigit = false := by
    decide
  rcases longRun_append_cons (by decide) h with hbefore | hopened
  · exact .inl hbefore
  · have hinside : LongRun (inside ++ '\n' :: (mark ++ behind)) :=
      longRun_of_append hopening hopened
    rcases longRun_append_cons (by decide) hinside with hinside | hclosed
    · exact .inr (.inl hinside)
    · exact .inr (.inr (longRun_of_append hmark hclosed))

end Fence

/-! ## Decoding -/

/-- A text that is not JSON is read as the block in it, if it has one. -/
theorem readLoosely_of_block {text block : List Char} (hread : ∀ v, Json.read text ≠ .ok v)
    (hdigits : ¬ LongRun text) (hblock : Fence.block? text = some block) :
    readLoosely text = match Json.read block with
      | .ok v => .ok (v, true)
      | .error fault => .error ⟨block, fault⟩ := by
  unfold readLoosely
  split
  · next v hv => exact absurd hv (hread v)
  · next hover => exact absurd (Json.longRun_of_read hover) hdigits
  · cases hinside : Json.read block with
    | ok v => simp only [hblock, hinside]
    | error fault => simp only [hblock, hinside]

/-- A text without a block is read as it is. -/
theorem readLoosely_of_no_block {text : List Char} (hblock : Fence.block? text = none) :
    readLoosely text = match Json.read text with
      | .ok v => .ok (v, false)
      | .error fault => .error ⟨text, fault⟩ := by
  unfold readLoosely
  split
  · next hv => rw [hv]
  · next hv => rw [hv]
  · next hv => simp only [hv, hblock]

namespace Schema

variable {s : Schema} {before inside behind : List Char}

theorem decode_fenced_eq (hbefore : '\x60' ∉ before) (hinside : ¬ Fence.mark <:+: inside)
    (hdigits : ¬ LongRun (Fence.fenced before inside behind)) :
    s.decode (Fence.fenced before inside behind)
      = (s.decode (Text.trim inside)).map Decoded.throughFence := by
  have hwrapped := readLoosely_of_block
    (Json.read_of_fence (Fence.opening_infix_fenced before inside behind)) hdigits
    (Fence.block?_fenced hbefore hinside behind)
  have halone := readLoosely_of_no_block (Fence.block?_trim hinside)
  rw [decode, decode, hwrapped, halone]
  cases Json.read (Text.trim inside) with
  | ok v => rfl
  | error fault => cases fault <;> rfl

/-- Decoding a payload in a fenced block comes to what decoding the payload comes to: the
same success, value and violations, by way of the block where there is a value. -/
theorem decode_fenced (hbefore : '\x60' ∉ before) (hinside : ¬ Fence.mark <:+: inside)
    (hshortBefore : ¬ LongRun before) (hshortInside : ¬ LongRun inside)
    (hshortBehind : ¬ LongRun behind) :
    (∀ d, s.decode (Text.trim inside) = .ok d →
        ∃ d', s.decode (Fence.fenced before inside behind) = .ok d'
          ∧ d'.isSuccess = d.isSuccess ∧ d'.payload = d.payload ∧ d'.violations = d.violations
          ∧ d'.strategyName = if d.isSuccess then "fenced" else "failed")
      ∧ ∀ e, s.decode (Text.trim inside) = .error e →
        s.decode (Fence.fenced before inside behind) = .error e := by
  have hdigits : ¬ LongRun (Fence.fenced before inside behind) := by
    intro h
    rcases Fence.longRun_of_fenced h with h | h | h
    · exact hshortBefore h
    · exact hshortInside h
    · exact hshortBehind h
  rw [decode_fenced_eq hbefore hinside hdigits]
  constructor
  · intro d hd
    rw [hd]
    refine ⟨d.throughFence, rfl, ?_⟩
    cases d <;> exact ⟨rfl, rfl, rfl, rfl⟩
  · intro e he
    rw [he]
    rfl

/-- A payload whose key and number have to be corrected, in a sentence and with a second
block behind it. -/
theorem decode_fenced_person :
    let age : SchemaField := ⟨"age", .number, true, none, some Value.isPositive, none⟩
    let s : Schema := ⟨"Person", [age], none, 4, by decide⟩
    let before := ['s', 'o', ':', ' ']
    let inside := "\n \x7b\"Age\": \"41\"\x7d ".toList
    let behind := ['!', '\x60', '\x60', '\x60', '0']
    '\x60' ∉ before ∧ ¬ Fence.mark <:+: inside
      ∧ ¬ LongRun before ∧ ¬ LongRun inside ∧ ¬ LongRun behind
      ∧ s.decode (Text.trim inside) = .ok (.value (.obj [("age", .int 41)]) .corrected)
      ∧ ∃ d, s.decode (Fence.fenced before inside behind) = .ok d ∧ d.isSuccess = true
          ∧ d.payload = .obj [("age", .int 41)] ∧ d.violations = []
          ∧ d.strategyName = "fenced" := by
  intro age s before inside behind
  have hchars : inside = ['\n', ' ', '{', '"', 'A', 'g', 'e', '"', ':', ' ', '"', '4', '1', '"',
      '}', ' '] := by
    cbv
  have htrim : Text.trim inside = ['{', '"', 'A', 'g', 'e', '"', ':', ' ', '"', '4', '1', '"',
      '}'] := by
    rw [hchars]
    decide
  have hbefore : '\x60' ∉ before := by
    decide
  have hinside : ¬ Fence.mark <:+: inside := by
    rw [hchars]
    decide
  have hshort : ∀ cs : List Char, cs.length ≤ 16 → ¬ LongRun cs := by
    intro cs hcs hlong
    exact absurd (hlong.lt_length.trans_le hcs) (by decide)
  have halone : s.decode (Text.trim inside)
      = .ok (.value (.obj [("age", .int 41)]) .corrected) := by
    rw [htrim]
    cbv
  have hshortInside : ¬ LongRun inside := hshort inside (by rw [hchars]; decide)
  have hshortBefore : ¬ LongRun before := hshort before (by decide)
  have hshortBehind : ¬ LongRun behind := hshort behind (by decide)
  exact ⟨hbefore, hinside, hshortBefore, hshortInside, hshortBehind, halone,
    (decode_fenced hbefore hinside hshortBefore hshortInside hshortBehind).1 _ halone⟩

end Schema

end TypedPrompt
