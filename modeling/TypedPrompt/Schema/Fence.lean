/-
# `Schema.Fence` — fenced blocks

A text may wrap what it has to say in a block between two fences of three back
quotes.  The block is what stands between the first fence and the next one after
it, without the label `json` behind the first fence and without white space at
either end.
-/
import TypedPrompt.Text.Blank

namespace TypedPrompt.Fence

/-- The mark at either end of a block. -/
def mark : List Char := ['\x60', '\x60', '\x60']

/-- The label that the first fence may have. -/
def label : List Char := ['j', 's', 'o', 'n']

/-- What stands before the first mark and what stands behind it. -/
def split? : List Char → Option (List Char × List Char)
  | [] => none
  | c :: cs =>
      if mark.isPrefixOf (c :: cs) then some ([], (c :: cs).drop mark.length)
      else (split? cs).map fun (before, behind) => (c :: before, behind)

/-- Nothing but the mark lies between the two parts. -/
theorem split?_append {cs before behind : List Char} (h : split? cs = some (before, behind)) :
    before ++ (mark ++ behind) = cs := by
  induction cs generalizing before behind with
  | nil => simp [split?] at h
  | cons c cs ih =>
      simp only [split?] at h
      split at h
      · next hp =>
          obtain ⟨rest, hr⟩ := List.isPrefixOf_iff_prefix.1 hp
          simp only [Option.some.injEq, Prod.mk.injEq] at h
          rw [← h.1, ← h.2, ← hr]
          simp
      · obtain ⟨⟨b, r⟩, hs, he⟩ := Option.map_eq_some_iff.1 h
        simp only [Prod.mk.injEq] at he
        rw [← he.1, ← he.2, List.cons_append, ih hs]

/-- The text without a label at its front. -/
def dropLabel (cs : List Char) : List Char :=
  if label.isPrefixOf cs then cs.drop label.length else cs

theorem dropLabel_suffix (cs : List Char) : dropLabel cs <:+ cs := by
  unfold dropLabel
  split
  · exact List.drop_suffix _ _
  · exact List.suffix_refl cs

/-- The first fenced block of a text. -/
def block? (text : List Char) : Option (List Char) := do
  let (_, inside) ← split? text
  let (block, _) ← split? (dropLabel inside)
  some (Text.trim block)

/-- The block stands in the text. -/
theorem block?_isInfix {text block : List Char} (h : block? text = some block) :
    block <:+: text := by
  obtain ⟨⟨before, inside⟩, houter, hinner⟩ := Option.bind_eq_some_iff.mp h
  obtain ⟨⟨body, behind⟩, hbody, htrim⟩ := Option.bind_eq_some_iff.mp hinner
  obtain rfl := Option.some.inj htrim
  have hinside : inside <:+ text := ⟨before ++ mark, by simp [split?_append houter]⟩
  have hlabelled : body <+: dropLabel inside := ⟨mark ++ behind, split?_append hbody⟩
  exact (Text.trim_isInfix body).trans
    (hlabelled.isInfix.trans ((dropLabel_suffix inside).trans hinside).isInfix)

end TypedPrompt.Fence
