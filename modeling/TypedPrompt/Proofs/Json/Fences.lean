/-
# `Proofs.Json.Fences` — no JSON text holds a fence

A back quote has no place in JSON but inside a string, and a string does not go on
behind the end of a line.  So a text with the opening of a fenced block in it, which is
three back quotes, a label and the end of the line, is not JSON (`read_of_fence`),
whatever stands before it and behind it.

The opening stays ahead of the reader: wherever a reader gets to, the opening is still
to come (`Leaves`).  It is passed over neither as a whole nor in part, since what is
taken outside of strings has no back quote in it (`Clear`), and a string that takes one
comes to the end of the line.
-/
import TypedPrompt.Proofs.Json.Oversized
import TypedPrompt.Schema.Fence

namespace TypedPrompt

namespace Fence

/-- The first fence of a block with a label, and the end of its line. -/
def opening : List Char := mark ++ (label ++ ['\n'])

theorem opening_eq : opening = ['\x60', '\x60', '\x60', 'j', 's', 'o', 'n', '\n'] := rfl

/-- From a text to the rest of it, past characters that are no back quotes. -/
def Clear (cs rest : List Char) : Prop := ∃ taken, cs = taken ++ rest ∧ '\x60' ∉ taken

namespace Clear

variable {cs ds rest : List Char}

theorem refl (cs : List Char) : Clear cs cs := ⟨[], rfl, List.not_mem_nil⟩

theorem trans (h : Clear cs ds) (h' : Clear ds rest) : Clear cs rest := by
  obtain ⟨taken, rfl, htaken⟩ := h
  obtain ⟨more, rfl, hmore⟩ := h'
  exact ⟨taken ++ more, by simp, by simp [htaken, hmore]⟩

theorem cons {c : Char} (hc : c ≠ '\x60') (h : Clear cs rest) : Clear (c :: cs) rest := by
  obtain ⟨taken, rfl, htaken⟩ := h
  exact ⟨c :: taken, rfl, by simp [htaken, hc.symm]⟩

theorem dropWhile {p : Char → Bool} (hp : p '\x60' = false) (cs : List Char) :
    Clear cs (cs.dropWhile p) := by
  refine ⟨cs.takeWhile p, List.takeWhile_append_dropWhile.symm, fun hmem => ?_⟩
  have hquote := List.all_eq_true.mp List.all_takeWhile _ hmem
  rw [hp] at hquote
  cases hquote

end Clear

/-- What lies ahead is not passed over where nothing but other characters is taken. -/
theorem infix_of_clear {cs rest : List Char} (h : opening <:+: cs) (hc : Clear cs rest) :
    opening <:+: rest := by
  obtain ⟨taken, rfl, htaken⟩ := hc
  induction taken with
  | nil => exact h
  | cons c taken ih =>
      rw [List.mem_cons, not_or] at htaken
      rw [List.cons_append, List.infix_cons_iff] at h
      rcases h with hfront | hlater
      · obtain ⟨ds, hds⟩ := hfront
        rw [opening_eq, List.cons_append] at hds
        exact absurd (List.cons.inj hds).1 htaken.1
      · exact ih htaken.2 hlater

end Fence

open Fence (Clear opening)

/-! ## Numerals -/

namespace Numeral

variable {cs rest : List Char}

theorem isDigit_backQuote : Text.isDigit '\x60' = false := by
  decide

theorem spanDigits_clear {ds : List Char} (h : spanDigits cs = (ds, rest)) : Clear cs rest := by
  obtain ⟨-, rfl⟩ := Prod.mk.inj h
  exact .dropWhile isDigit_backQuote cs

theorem scanWhole_clear {whole : List Char} (h : scanWhole cs = some (whole, rest)) :
    Clear cs rest := by
  unfold scanWhole at h
  split at h
  · cases h
    exact (Clear.refl _).cons (by decide)
  · split at h
    · exact spanDigits_clear (Option.some.inj h)
    · cases h
  · cases h

theorem scanFraction_clear (cs : List Char) : Clear cs (scanFraction cs).2 := by
  unfold scanFraction
  split
  · next rest =>
      split
      · exact .refl _
      · next hs => exact (spanDigits_clear hs).cons (by decide)
  · exact .refl _

theorem scanSigned_clear {e : Int} (h : scanSigned cs = some (e, rest)) : Clear cs rest := by
  simp only [scanSigned] at h
  split at h
  · cases h
  · next ds rest' _ hspan =>
      obtain rfl : rest' = rest := (Prod.mk.inj (Option.some.inj h)).2
      refine Clear.trans ?_ (spanDigits_clear hspan)
      split
      · exact (Clear.refl _).cons (by decide)
      · exact (Clear.refl _).cons (by decide)
      · exact .refl _

theorem scanExponent_clear (cs : List Char) : Clear cs (scanExponent cs).2 := by
  unfold scanExponent
  split
  · next c rest =>
      split
      · next hc =>
          split
          · next hs =>
              refine (scanSigned_clear hs).cons ?_
              rintro rfl
              revert hc
              decide
          · exact .refl _
      · exact .refl _
  · exact .refl _

theorem scanUnsigned_clear {negative : Bool} {n : Numeral}
    (h : scanUnsigned negative cs = some (n, rest)) : Clear cs rest := by
  obtain ⟨⟨whole, afterWhole⟩, hw, hn⟩ := Option.bind_eq_some_iff.mp h
  obtain ⟨-, rfl⟩ := Prod.mk.inj (Option.some.inj hn)
  exact (scanWhole_clear hw).trans ((scanFraction_clear _).trans (scanExponent_clear _))

theorem scan_clear {n : Numeral} (h : scan cs = some (n, rest)) : Clear cs rest := by
  unfold scan at h
  split at h
  · exact (scanUnsigned_clear h).cons (by decide)
  · exact scanUnsigned_clear h

end Numeral

namespace Json

/-! ## Readers that do not get past the opening -/

section Leaves

variable {α β : Type}

/-- Where something was read, the opening is still ahead. -/
def Leaves : Except Fault (α × List Char) → Prop
  | .ok (_, rest) => opening <:+: rest
  | .error _ => True

variable {r : Except Fault (α × List Char)}

theorem Leaves.bind {f : α × List Char → Except Fault (β × List Char)} (h : Leaves r)
    (hf : ∀ a rest, opening <:+: rest → Leaves (f (a, rest))) : Leaves (r >>= f) := by
  cases r with
  | ok p => exact hf p.1 p.2 h
  | error fault => trivial

theorem Leaves.map {f : α → β} (h : Leaves r) : Leaves (r.map fun (a, rest) => (f a, rest)) := by
  cases r with
  | ok p => exact h
  | error fault => trivial

end Leaves

theorem skipSpace_clear (cs : List Char) : Clear cs (skipSpace cs) :=
  .dropWhile (by decide) cs

/-- Behind a mark with white space in front of it, unless the mark is a back quote. -/
theorem infix_of_skipSpace {cs rest : List Char} {mark : Char} (h : opening <:+: cs)
    (hs : skipSpace cs = mark :: rest) (hm : mark ≠ '\x60') : opening <:+: rest := by
  have hspace := skipSpace_clear cs
  rw [hs] at hspace
  exact Fence.infix_of_clear h (hspace.trans ((Clear.refl rest).cons hm))

/-! ## Strings, words and numbers -/

theorem hexValue?_ne {c : Char} {n : Nat} (h : Text.hexValue? c = some n) : c ≠ '\x60' := by
  rintro rfl
  revert h
  simp [Text.hexValue?]

theorem clear_of_hexUnit {a b c d : Char} {n : Nat} (h : hexUnit a b c d = some n)
    (rest : List Char) : Clear ('\\' :: 'u' :: a :: b :: c :: d :: rest) rest := by
  obtain ⟨_, ha, h⟩ := Option.bind_eq_some_iff.mp h
  obtain ⟨_, hb, h⟩ := Option.bind_eq_some_iff.mp h
  obtain ⟨_, hc, h⟩ := Option.bind_eq_some_iff.mp h
  obtain ⟨_, hd, -⟩ := Option.bind_eq_some_iff.mp h
  refine .cons (by decide) (.cons (by decide) ?_)
  exact .cons (hexValue?_ne ha) (.cons (hexValue?_ne hb)
    (.cons (hexValue?_ne hc) (.cons (hexValue?_ne hd) (.refl rest))))

theorem shortEscape_ne {c x : Char} (h : shortEscape c = some x) : c ≠ '\x60' := by
  rintro rfl
  cases h

theorem Leaves.consRead {c : Char} {r : Except Fault (List Char × List Char)} (h : Leaves r) :
    Leaves (consRead c r) := h.map

/-- A string that takes the first character of the opening comes to the end of the line. -/
theorem readString_opening (start rest : List Char) :
    Leaves (readString start (opening.tail ++ rest)) := by
  rw [Fence.opening_eq]
  simp [readString, Json.consRead, Except.map, Leaves]

theorem readString_leaves (start : List Char) {cs : List Char} (h : opening <:+: cs) :
    Leaves (readString start cs) := by
  fun_induction readString start cs with
  | case1 | case3 | case8 | case9 | case11 | case12 | case13 => trivial
  | case2 rest => exact Fence.infix_of_clear h ((Clear.refl rest).cons (by decide))
  | case4 _ _ _ _ _ _ _ _ _ _ _ hn _ _ hm _ ih =>
      exact (ih (Fence.infix_of_clear h ((clear_of_hexUnit hn _).trans
        (clear_of_hexUnit hm _)))).consRead
  | case5 _ _ _ _ _ _ _ _ _ _ _ hn _ _ _ _ ih | case6 _ _ _ _ _ _ _ _ _ _ _ hn _ ih
  | case7 _ _ _ _ _ _ _ _ hn ih =>
      exact (ih (Fence.infix_of_clear h (clear_of_hexUnit hn _))).consRead
  | case10 c rest _ _ x hx ih =>
      have hclear : Clear ('\\' :: c :: rest) rest :=
        .cons (by decide) (.cons (shortEscape_ne hx) (.refl rest))
      exact (ih (Fence.infix_of_clear h hclear)).consRead
  | case14 c rest _ _ _ _ _ ih =>
      refine Leaves.consRead ?_
      rcases List.infix_cons_iff.mp h with ⟨ds, hds⟩ | hlater
      · obtain ⟨-, rfl⟩ := List.cons.inj hds
        exact readString_opening start ds
      · exact ih hlater

theorem readWord_clear {cs rest : List Char} {v : Value} (h : readWord cs = some (v, rest)) :
    Clear cs rest := by
  obtain ⟨⟨word, w⟩, hword, hw⟩ := List.exists_of_findSome?_eq_some h
  simp only at hw
  split at hw
  · next hfront =>
      cases hw
      obtain ⟨ds, rfl⟩ := List.isPrefixOf_iff_prefix.mp hfront
      refine ⟨word, by simp, ?_⟩
      have hwords : ∀ entry ∈ words, '\x60' ∉ entry.1 := by
        decide
      exact hwords _ hword
  · cases hw

theorem readPlain_leaves {cs : List Char} (h : opening <:+: cs) : Leaves (readPlain cs) := by
  unfold readPlain
  split
  · next hword => exact Fence.infix_of_clear h (readWord_clear hword)
  · split
    · next n rest hscan =>
        cases hn : ofNumeral n with
        | error fault => trivial
        | ok v => exact Fence.infix_of_clear h (Numeral.scan_clear hscan)
    · trivial

/-! ## Arrays and objects -/

section Containers

variable {item : Reader Value} (hitem : ∀ cs, opening <:+: cs → Leaves (item cs))

include hitem

theorem readItems_leaves (fuel : Nat) {cs : List Char} (h : opening <:+: cs) :
    Leaves (readItems item fuel cs) := by
  induction fuel generalizing cs with
  | zero => trivial
  | succ fuel ih =>
      refine (hitem cs h).bind fun v rest hrest => ?_
      dsimp only
      split
      · next heq => exact infix_of_skipSpace hrest heq (by decide)
      · next rest' heq =>
          have hbehind := infix_of_skipSpace hrest heq (by decide)
          exact (ih (Fence.infix_of_clear hbehind (skipSpace_clear rest'))).bind
            fun _ _ hrest'' => hrest''
      · trivial

theorem readArray_leaves {cs : List Char} (h : opening <:+: cs) : Leaves (readArray item cs) := by
  unfold readArray
  split
  · next heq => exact infix_of_skipSpace h heq (by decide)
  · exact (readItems_leaves hitem _ (Fence.infix_of_clear h (skipSpace_clear cs))).map

theorem readEntry_leaves {cs : List Char} (h : opening <:+: cs) : Leaves (readEntry item cs) := by
  unfold readEntry
  split
  · next cs =>
      have hinside := Fence.infix_of_clear h ((Clear.refl cs).cons (by decide))
      refine (readString_leaves ('"' :: cs) hinside).bind fun name rest hrest => ?_
      dsimp only
      split
      · next rest' heq =>
          have hbehind := infix_of_skipSpace hrest heq (by decide)
          exact (hitem _ (Fence.infix_of_clear hbehind (skipSpace_clear rest'))).bind
            fun _ _ hrest'' => hrest''
      · trivial
  · trivial

theorem readEntries_leaves (fuel : Nat) {es : Entries Value} {cs : List Char}
    (h : opening <:+: cs) : Leaves (readEntries item fuel es cs) := by
  induction fuel generalizing es cs with
  | zero => trivial
  | succ fuel ih =>
      refine (readEntry_leaves hitem h).bind fun entry rest hrest => ?_
      dsimp only
      split
      · next heq => exact infix_of_skipSpace hrest heq (by decide)
      · next rest' heq =>
          have hbehind := infix_of_skipSpace hrest heq (by decide)
          exact ih (Fence.infix_of_clear hbehind (skipSpace_clear rest'))
      · trivial

theorem readObject_leaves {cs : List Char} (h : opening <:+: cs) :
    Leaves (readObject item cs) := by
  unfold readObject
  split
  · next heq => exact infix_of_skipSpace h heq (by decide)
  · exact (readEntries_leaves hitem _ (Fence.infix_of_clear h (skipSpace_clear cs))).map

end Containers

theorem readValue_leaves (depth : Nat) {cs : List Char} (h : opening <:+: cs) :
    Leaves (readValue depth cs) := by
  induction depth using Nat.strongRecOn generalizing cs with
  | ind depth ih =>
      unfold readValue
      split
      · next rest =>
          have hinside := Fence.infix_of_clear h ((Clear.refl rest).cons (by decide))
          exact (readString_leaves _ hinside).map (f := fun cs => Value.str (String.ofList cs))
      · trivial
      · next depth rest =>
          have hinside := Fence.infix_of_clear h ((Clear.refl rest).cons (by decide))
          exact readArray_leaves (fun _ => ih depth depth.lt_succ_self) hinside
      · trivial
      · next depth rest =>
          have hinside := Fence.infix_of_clear h ((Clear.refl rest).cons (by decide))
          exact readObject_leaves (fun _ => ih depth depth.lt_succ_self) hinside
      · exact readPlain_leaves h

/-- A text with the opening of a fenced block in it is not JSON. -/
theorem read_of_fence {cs : List Char} (h : opening <:+: cs) (v : Value) : read cs ≠ .ok v := by
  have hvalue := readValue_leaves maxDepth (Fence.infix_of_clear h (skipSpace_clear cs))
  unfold read
  split
  · nofun
  · cases hr : readValue maxDepth (skipSpace cs) with
    | error fault => nofun
    | ok p =>
        obtain ⟨w, rest⟩ := p
        rw [hr] at hvalue
        have hrest := Fence.infix_of_clear hvalue (skipSpace_clear rest)
        simp only [Bind.bind, Except.bind]
        split
        · next hnil =>
            rw [hnil] at hrest
            exact absurd hrest (by decide)
        · nofun

end Json

end TypedPrompt
