/-
# `Proofs.Reading.DerivedTypes` — a type that is read has a derivation

One lemma for each production: if the reader for nested types only takes tokens
with a derivation, then so does the production.  `typeWithin_yields` ties the
knot, over the levels that are left.
-/
import TypedPrompt.Proofs.Reading.Yields

namespace TypedPrompt

namespace Grammar

variable {α β : Type} {sep : Kind} {R : Phrase α} {ts : List Token} {as : List α}

theorem Separated.ne_nil (h : Separated sep R ts as) : as ≠ [] := by
  cases h <;> simp

/-- Items that come from others come from a list of those. -/
theorem Separated.exists_map {g : β → α} {S : Phrase β}
    (h : Separated sep (fun ts a => ∃ b, S ts b ∧ a = g b) ts as) :
    ∃ bs, Separated sep S ts bs ∧ as = bs.map g := by
  induction h with
  | last ha =>
      obtain ⟨b, hb, rfl⟩ := ha
      exact ⟨[b], .last hb, rfl⟩
  | next ha hs _ ih =>
      obtain ⟨b, hb, rfl⟩ := ha
      obtain ⟨bs, hbs, rfl⟩ := ih
      exact ⟨b :: bs, .next hb hs hbs, rfl⟩

theorem Listed.exists_map {g : β → α} {S : Phrase β}
    (h : Listed sep (fun ts a => ∃ b, S ts b ∧ a = g b) ts as) :
    ∃ bs, Listed sep S ts bs ∧ as = bs.map g := by
  cases h with
  | none => exact ⟨[], .none, rfl⟩
  | some h =>
      obtain ⟨bs, hbs, rfl⟩ := h.exists_map
      exact ⟨bs, .some hbs, rfl⟩

/-- Items put together by a function that leaves a single one as it is. -/
theorem Separated.joined {join put : List α → α} (h : Separated sep R ts as)
    (hone : ∀ a, put [a] = a) (hmany : ∀ a b as, put (a :: b :: as) = join (a :: b :: as)) :
    Joined sep R join ts (put as) := by
  cases h with
  | @last ts a ha =>
      rw [hone]
      exact .single ha
  | @next ts us s a as ha hs has =>
      cases as with
      | nil => exact absurd rfl has.ne_nil
      | cons b bs =>
          rw [hmany]
          exact .several (.next ha hs has) (by simp)

end Grammar

namespace Reading

open Reader Grammar

/-! ## Numbers -/

theorem integer_numeral {t : Token} {v : Int} (ht : t.IsWritten) (hk : t.kind = .number)
    (hf : (numeral t).fraction = none) (h : integer (numeral t) = .ok v) :
    IsInteger t ∧ v = integerOf t := by
  obtain ⟨hp, hw⟩ := digits_of_fraction_eq_none ht hk hf
  have hn : (numeral t).negative = false := rfl
  unfold integer Numeral.toInt? at h
  rw [hw, hn] at h
  split at h
  · next i hi =>
      split at hi
      · cases hi
      · next hd =>
          cases hi
          cases h
          exact ⟨⟨hk, hp, Nat.not_lt.mp hd⟩, rfl⟩
  · cases h

theorem lengthBound_yields {i : Input} :
    lengthBound.Yields i fun ts v => ∃ t, IsInteger t ∧ ts = [t] ∧ v = integerOf t := by
  refine Yields.bind (R := fun ts t => (t.kind = .number ∧ t.IsWritten) ∧ ts = [t])
    (Yields.expect (by simp) fun t hk ht => ⟨⟨hk, ht⟩, rfl⟩) ?_
  rintro t _ j ⟨⟨hk, ht⟩, rfl⟩
  refine Yields.ite (fun _ => Yields.failAt) ?_
  intro hf
  refine Yields.lift ?_
  intro v hv
  obtain ⟨hi, rfl⟩ := integer_numeral ht hk (by simpa using hf) hv
  exact ⟨t, hi, rfl, rfl⟩

/-- What one bound is, with the comma in front of it. -/
def NextBound (ts : List Token) (bound : Option Int) : Prop :=
  (ts = [] ∧ bound = none)
    ∨ ∃ c n, c.kind = .symbol .comma ∧ IsInteger n ∧ ts = [c, n] ∧ bound = some (integerOf n)

theorem nextBound_yields {i : Input} : nextBound.Yields i NextBound := by
  refine Yields.accept_ite (by simp) ?_ (Yields.pure (.inl ⟨rfl, rfl⟩))
  intro c j hc
  refine Yields.bind lengthBound_yields ?_
  rintro v _ k ⟨n, hn, rfl, rfl⟩
  exact Yields.pure (.inr ⟨c, n, hc, hn, rfl, rfl⟩)

theorem lengthBounds_yields {i : Input} : lengthBounds.Yields i Bounds := by
  refine Yields.bind nextBound_yields ?_
  rintro least _ j (⟨rfl, rfl⟩ | ⟨c, n, hc, hn, rfl, rfl⟩)
  · exact Yields.pure .none
  · refine Yields.bind nextBound_yields ?_
    rintro most _ k (⟨rfl, rfl⟩ | ⟨d, m, hd, hm, rfl, rfl⟩)
    · exact Yields.pure (.least hc hn)
    · exact Yields.pure (.both hc hn hd hm)

theorem temperature_yields {i : Input} {what : Expectation} :
    (temperature what).Yields i
      fun ts x => ∃ n, n.kind = .number ∧ ts = [n] ∧ x = (numeral n).toBinary64 := by
  refine Yields.bind (expect_yields (by simp)) ?_
  rintro n _ j ⟨hn, rfl⟩
  exact Yields.pure ⟨n, hn, rfl, rfl⟩

theorem promptSettings_yields {i : Input} : promptSettings.Yields i PromptSettings := by
  refine Yields.accept_ite (by simp) ?_ (Yields.pure .none)
  intro c j hc
  refine Yields.at_bind (Yields.ite ?_ ?_)
  · intro hs
    refine Yields.bind (step_yields (by simp) (eq_of_beq hs)) ?_
    rintro s _ k ⟨hs, rfl⟩
    refine Yields.accept_ite (by simp) ?_ (Yields.pure (.model hc hs))
    intro d l hd
    refine Yields.bind temperature_yields ?_
    rintro x _ m ⟨n, hn, rfl, rfl⟩
    exact Yields.pure (.both hc hs hd hn)
  · intro _
    refine Yields.bind temperature_yields ?_
    rintro x _ m ⟨n, hn, rfl, rfl⟩
    exact Yields.pure (.temperature hc hn)

/-- A name that no earlier item has keeps the names distinct. -/
theorem nodup_names {α : Type} {name : α → String} {before : List α} {a : α}
    (hb : (before.map name).Nodup) (ha : ∀ b ∈ before, name b ≠ name a) :
    ((before ++ [a]).map name).Nodup := by
  rw [List.map_append, List.nodup_append]
  refine ⟨hb, by simp, ?_⟩
  intro x hx y hy
  obtain ⟨b, hb', rfl⟩ := List.mem_map.mp hx
  rw [List.map_singleton, List.mem_singleton] at hy
  rw [hy]
  exact ha b hb'

section Productions

variable {inner : Reader Ty} (hinner : ∀ i, inner.Yields i Annotation)

theorem question_yields {i : Input} : (accept (.symbol .question)).Yields i Question :=
  Yields.accept (by simp) (fun _ => .yes) .no

include hinner

/-! ## Names and their types -/

theorem namedType_yields {i : Input} :
    (namedType inner).Yields i fun ts (name, type, isOptional) =>
      Named ts ⟨name, type, isOptional⟩ := by
  refine Yields.bind (expect_yields (by simp)) ?_
  rintro n _ j ⟨hn, rfl⟩
  refine Yields.bind question_yields ?_
  intro early qs k hq
  refine Yields.bind (expect_yields (by simp)) ?_
  rintro c _ l ⟨hc, rfl⟩
  refine Yields.bind (hinner l) ?_
  intro type ts m ht
  refine Yields.bind question_yields ?_
  intro late rs o hr
  refine Yields.pure ?_
  simpa using Named.intro hn hq hc ht hr

theorem paramType_yields {i : Input} :
    (paramType inner).Yields i fun ts p => ∃ n, Named ts n ∧ p = NamedType.param n := by
  refine Yields.bind (namedType_yields hinner) ?_
  rintro ⟨name, type, isOptional⟩ ts j hn
  refine Yields.pure ⟨⟨name, type, isOptional⟩, ?_, rfl⟩
  simpa using hn

/-- A field has a name that none of the fields before it has. -/
theorem fieldType_yields {before : List (Field Ty)} {i : Input}
    (hb : (before.map Field.name).Nodup) :
    (fieldType inner before).Yields i fun ts f =>
      (∃ n, Named ts n ∧ f = NamedType.field n) ∧ ((before ++ [f]).map Field.name).Nodup := by
  refine Yields.bind (namedType_yields hinner) ?_
  rintro ⟨name, type, isOptional⟩ ts j hn
  refine Yields.ite (fun _ => Yields.peek_bind Yields.failAt) ?_
  intro hnew
  have hnew : ∀ f ∈ before, f.name ≠ name := by
    simpa using hnew
  refine Yields.pure ⟨⟨⟨name, type, isOptional⟩, ?_, rfl⟩, nodup_names hb hnew⟩
  simpa using hn

/-! ## Types with arguments -/

theorem functionType_yields {i : Input} : (functionType inner).Yields i Atom := by
  refine Yields.bind (expect_yields (by simp)) ?_
  rintro l _ j ⟨hl, rfl⟩
  refine listed_yields (I := fun _ => True) (by simp) trivial
    (fun _ i _ => (paramType_yields hinner).mono fun _ _ h => ⟨h, trivial⟩) ?_
  intro ps ts k hps _
  obtain ⟨ns, hns, rfl⟩ := hps.exists_map
  refine Yields.bind (expect_yields (by simp)) ?_
  rintro r _ m ⟨hr, rfl⟩
  refine Yields.bind (expect_yields (by simp)) ?_
  rintro arrow _ n ⟨ha, rfl⟩
  refine Yields.bind (hinner n) ?_
  intro returns us o hret
  refine Yields.pure ?_
  simpa using Atom.function (.intro hl hns hr) ha hret

/-- Arguments in brackets behind a name. -/
theorem listType_yields {i : Input} {n : Token} (hn : n.IsWord "list") :
    (listType inner).Yields i fun ts t => Word (n :: ts) t := by
  refine Yields.accept_ite (by simp) ?_ (Yields.pure (.list hn))
  intro l j hl
  refine Yields.bind (hinner j) ?_
  intro element ts k he
  refine Yields.bind lengthBounds_yields ?_
  rintro ⟨least, most⟩ us m hb
  refine Yields.bind (expect_yields (by simp)) ?_
  rintro r _ o ⟨hr, rfl⟩
  refine Yields.pure ?_
  simpa using Word.listOf hn (.intro hl (.intro he hb) hr)

theorem recordType_yields {i : Input} {n : Token} (hn : n.IsWord "record") :
    (recordType inner).Yields i fun ts t => Word (n :: ts) t := by
  refine Yields.accept_ite (by simp) ?_ (Yields.pure (.record hn))
  intro l j hl
  refine listed_yields (I := fun fs => (fs.map Field.name).Nodup) (by simp) (by simp)
    (fun _ i hb => fieldType_yields hinner hb) ?_
  intro fs ts k hfs hd
  obtain ⟨ns, hns, rfl⟩ := hfs.exists_map
  rw [List.map_map] at hd
  refine Yields.bind (expect_yields (by simp)) ?_
  rintro r _ m ⟨hr, rfl⟩
  refine Yields.pure ?_
  simpa using Word.recordOf hn (.intro hl hns hr) hd

theorem dynamicType_yields {i : Input} {n : Token} (hn : n.IsWord "dynamic") :
    (dynamicType inner).Yields i fun ts t => Word (n :: ts) t := by
  refine Yields.accept_ite (by simp) ?_ (Yields.pure (.dynamic hn))
  intro l j hl
  refine Yields.bind (hinner j) ?_
  intro constraint ts k hc
  refine Yields.bind (expect_yields (by simp)) ?_
  rintro r _ m ⟨hr, rfl⟩
  refine Yields.pure ?_
  simpa using Word.dynamicOf hn (.intro hl hc hr)

theorem promptType_yields {i : Input} {n : Token} (hn : n.IsWord "prompt") :
    (promptType inner).Yields i fun ts t => Word (n :: ts) t := by
  refine Yields.accept_ite (by simp) ?_ (Yields.pure (.prompt hn))
  intro l j hl
  refine Yields.bind (hinner j) ?_
  intro input ts k hi
  refine Yields.bind (expect_yields (by simp)) ?_
  rintro c _ m ⟨hc, rfl⟩
  refine Yields.bind (hinner m) ?_
  intro output us o ho
  refine Yields.bind promptSettings_yields ?_
  rintro ⟨model, x⟩ vs p hp
  refine Yields.bind (expect_yields (by simp)) ?_
  rintro r _ q ⟨hr, rfl⟩
  refine Yields.pure ?_
  simpa using Word.promptOf hn (.intro hl (.intro hi hc ho hp) hr)

/-! ## Atoms, intersections, unions -/

theorem typeOfName_yields {i : Input} {n : Token} (hn : n.kind = .name) :
    (typeOfName inner n.text).Yields i fun ts t => Word (n :: ts) t := by
  unfold typeOfName
  split
  · next p hp =>
      have hp : n.text = p.name := by
        have := List.find?_some hp
        exact (eq_of_beq this).symm
      exact Yields.pure (.primitive p ⟨hn, hp⟩)
  · next hp =>
      refine Yields.ite (fun h => Yields.pure (.never ⟨hn, h⟩)) fun hnever => ?_
      refine Yields.ite (fun h => listType_yields hinner ⟨hn, h⟩) fun hlist => ?_
      refine Yields.ite (fun h => recordType_yields hinner ⟨hn, h⟩) fun hrecord => ?_
      refine Yields.ite (fun h => dynamicType_yields hinner ⟨hn, h⟩) fun hdynamic => ?_
      refine Yields.ite (fun h => promptType_yields hinner ⟨hn, h⟩) fun hprompt => ?_
      refine Yields.pure (.other hn ?_)
      have hp : ∀ p ∈ Primitive.all, p.name ≠ n.text := by
        simpa [Primitive.ofName?] using hp
      intro hm
      rcases List.mem_append.mp hm with hm | hm
      · obtain ⟨p, hpm, heq⟩ := List.mem_map.mp hm
        exact hp p hpm heq
      · simp [hnever, hlist, hrecord, hdynamic, hprompt] at hm

theorem groupedType_yields {i : Input} (hl : i.current.kind = .symbol .leftParen) :
    (groupedType inner).Yields i Atom := by
  refine Yields.bind (step_yields (by simp) hl) ?_
  rintro l _ j ⟨hl, rfl⟩
  refine Yields.bind (hinner j) ?_
  intro t ts k ht
  refine Yields.bind (expect_yields (by simp)) ?_
  rintro r _ m ⟨hr, rfl⟩
  refine Yields.pure ?_
  simpa using Atom.group (.intro hl ht hr)

theorem atomType_yields {i : Input} : (atomType inner).Yields i Atom := by
  refine Yields.at_bind (Yields.ite ?_ ?_)
  · intro hl
    refine Yields.ahead_bind fun isFunction => Yields.ite ?_ ?_
    · intro _
      exact functionType_yields hinner
    · intro _
      exact groupedType_yields hinner (eq_of_beq hl)
  · intro _
    refine Yields.bind (expect_yields (by simp)) ?_
    rintro n _ j ⟨hn, rfl⟩
    exact (typeOfName_yields hinner hn).mono fun ts t h => .word h

theorem interType_yields {i : Input} : (interType inner).Yields i Intersection := by
  refine Yields.bind (separated_yields_plain (by simp) fun i => atomType_yields hinner) ?_
  intro members ts j h
  refine Yields.pure (.inter ?_)
  rw [List.append_nil]
  exact h.joined (fun _ => rfl) fun _ _ _ => rfl

theorem unionType_yields {i : Input} : (unionType inner).Yields i Annotation := by
  refine Yields.bind (separated_yields_plain (by simp) fun i => interType_yields hinner) ?_
  intro members ts j h
  refine Yields.pure (.union ?_)
  rw [List.append_nil]
  exact h.joined (fun _ => rfl) fun _ _ _ => rfl

end Productions

/-- The tokens that a type is read from have a derivation. -/
theorem typeWithin_yields (limit : Int) (levels : Nat) (i : Input) :
    (typeWithin limit levels).Yields i Annotation := by
  induction levels generalizing i with
  | zero => exact Yields.peek_bind Yields.failAt
  | succ levels ih => exact unionType_yields ih

end Reading

end TypedPrompt
