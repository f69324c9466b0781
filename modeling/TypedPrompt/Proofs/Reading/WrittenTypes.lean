/-
# `Proofs.Reading.WrittenTypes` — what every type that is read is like

A type is read from the inside out: the words first, then what is built around
them, and several members are put together in normal form.  A property that each
of these steps keeps (`Kept`) holds of every type that has a derivation
(`Annotation.kept`).

Such properties are the normal form, the names of fields, since a record type that
repeats one is refused, the bounds of lists and the temperatures of prompts, which are
written without a sign (`Ty.wellFormed_of_annotation`, `Ty.written_of_annotation`), and that
a type equals itself.
-/
import TypedPrompt.Proofs.Reading.DerivedExpressions
import TypedPrompt.Proofs.Ty.Identity
import TypedPrompt.Proofs.Ty.Normalisation
import TypedPrompt.Reading.Source

namespace TypedPrompt

namespace Grammar

/-! ## What stands inside a form

The tokens of a part are no more than those of the whole, and fewer where the
form has marks around it. -/

section Forms

variable {α : Type} {R : Phrase α} {sep : Kind} {ts : List Token} {as : List α} {a : α}

theorem Separated.item (h : Separated sep R ts as) (ha : a ∈ as) :
    ∃ us, us.length ≤ ts.length ∧ R us a := by
  induction h with
  | @last ts b hb =>
      obtain rfl := List.mem_singleton.mp ha
      exact ⟨ts, Nat.le_refl _, hb⟩
  | @next ts us s b bs hb _ _ ih =>
      rcases List.mem_cons.mp ha with rfl | ha
      · exact ⟨ts, by simp, hb⟩
      · obtain ⟨vs, hle, hvs⟩ := ih ha
        exact ⟨vs, by simp only [List.length_append, List.length_cons]; omega, hvs⟩

theorem Listed.item (h : Listed sep R ts as) (ha : a ∈ as) :
    ∃ us, us.length ≤ ts.length ∧ R us a := by
  cases h with
  | none => exact absurd ha List.not_mem_nil
  | some h => exact h.item ha

theorem Enclosed.inside {left right : Symbol} (h : Enclosed left right R ts a) :
    ∃ us, us.length < ts.length ∧ R us a := by
  cases h with
  | @intro l r us a _ h _ =>
      exact ⟨us, by simp only [List.length_cons, List.length_append]; omega, h⟩

end Forms

end Grammar

namespace Ty

/-- The steps by which types are read keep a property. -/
structure Kept (P : Ty → Prop) : Prop where
  primitive (p : Primitive) : P (.primitive p)
  any : P any
  never : P never
  dynamic : P dynamic
  dynamicOf {c : Ty} : P c → P (dynamicOf c)
  list {e : Ty} {least most : Option Int} :
    (list e least most).isBoundedNode = true → P e → P (list e least most)
  record {fs : List (Field Ty)} : (fs.map Field.name).Nodup → (∀ f ∈ fs, P f.type) →
    P (record fs true)
  function {ps : List (Param Ty)} {r : Ty} : (∀ p ∈ ps, P p.type) → P r → P (function ps r)
  prompt {i o : Ty} {model : Option String} {x : Option Binary64} :
    (prompt i o model x).isWrittenNode = true → P i → P o → P (prompt i o model x)
  unionOf {ts : List Ty} : (∀ t ∈ ts, P t) → P (unionOf ts)
  interOf {ts : List Ty} : (∀ t ∈ ts, P t) → P (interOf ts)

end Ty

namespace Grammar

variable {P : Ty → Prop} {ts : List Token} {t : Ty}

/-- A bound that is read is not below zero. -/
theorem Bounds.isBounded {e : Ty} {least most : Option Int} (h : Bounds ts (least, most)) :
    (Ty.list e least most).isBoundedNode = true := by
  cases h with
  | none => rfl
  | least | both => simp [Ty.isBoundedNode, integerOf]

/-- A temperature is read without a sign. -/
theorem PromptSettings.isWritten {i o : Ty} {model : Option String} {x : Option Binary64}
    (h : PromptSettings ts (model, x)) : (Ty.prompt i o model x).isWrittenNode = true := by
  cases h with
  | none | model => rfl
  | both | temperature => exact decide_eq_true (Numeral.toBinary64_isNormal (Reading.numeral _))

/-! ## Each production keeps the property -/

theorem Named.kept {n : NamedType}
    (hA : ∀ us t, us.length < ts.length → Annotation us t → P t) (h : Named ts n) : P n.type := by
  cases h with
  | @intro n c qs us rs early late t _ _ _ ht _ => exact hA us t (by simp; omega) ht

/-- Names with their types in brackets. -/
theorem Enclosed.kept {left right : Symbol} {ns : List NamedType}
    (hA : ∀ us t, us.length < ts.length → Annotation us t → P t)
    (h : Enclosed left right (Listed (.symbol .comma) Named) ts ns) : ∀ n ∈ ns, P n.type := by
  intro n hn
  obtain ⟨us, hus, h⟩ := h.inside
  obtain ⟨vs, hvs, h⟩ := h.item hn
  exact h.kept fun ws t hws => hA ws t (by omega)

theorem Word.kept (hP : Ty.Kept P)
    (hA : ∀ us t, us.length < ts.length → Annotation us t → P t) (h : Word ts t) : P t := by
  cases h with
  | primitive p _ => exact hP.primitive p
  | never _ => exact hP.never
  | list _ => exact hP.list rfl hP.any
  | listOf _ h =>
      obtain ⟨us, hus, h⟩ := h.inside
      cases h with
      | @intro vs ws e least most he hbounds =>
          exact hP.list hbounds.isBounded (hA vs e (by simp at hus ⊢; omega) he)
  | record _ => exact hP.record (by simp) (by simp)
  | @recordOf n us ns _ h hnodup =>
      refine hP.record (by rwa [List.map_map]) fun f hf => ?_
      obtain ⟨n, hn, rfl⟩ := List.mem_map.mp hf
      exact h.kept (fun vs t hvs => hA vs t (by simp; omega)) n hn
  | dynamic _ => exact hP.dynamic
  | dynamicOf _ h =>
      obtain ⟨us, hus, h⟩ := h.inside
      exact hP.dynamicOf (hA us _ (by simp; omega) h)
  | prompt _ => exact hP.prompt rfl hP.any hP.any
  | promptOf _ h =>
      obtain ⟨us, hus, h⟩ := h.inside
      cases h with
      | @intro vs ws xs c i o model x hi _ ho hx =>
          exact hP.prompt hx.isWritten (hA vs i (by simp at hus ⊢; omega) hi)
            (hA ws o (by simp at hus ⊢; omega) ho)
  | other _ _ => exact hP.any

theorem Atom.kept (hP : Ty.Kept P)
    (hA : ∀ us t, us.length < ts.length → Annotation us t → P t) (h : Atom ts t) : P t := by
  cases h with
  | @function us vs arrow ns r h _ hr =>
      refine hP.function (fun p hp => ?_) (hA vs r (by simp; omega) hr)
      obtain ⟨n, hn, rfl⟩ := List.mem_map.mp hp
      exact h.kept (fun ws t hws => hA ws t (by simp; omega)) n hn
  | group h =>
      obtain ⟨us, hus, h⟩ := h.inside
      exact hA us t hus h
  | word h => exact h.kept hP hA

theorem Intersection.kept (hP : Ty.Kept P)
    (hA : ∀ us t, us.length < ts.length → Annotation us t → P t) (h : Intersection ts t) :
    P t := by
  cases h with
  | inter h =>
      cases h with
      | single h => exact h.kept hP hA
      | several h _ =>
          refine hP.interOf fun t ht => ?_
          obtain ⟨us, hus, h⟩ := h.item ht
          exact h.kept hP fun vs t hvs => hA vs t (by omega)

theorem Annotation.kept (hP : Ty.Kept P) (h : Annotation ts t) : P t := by
  induction hn : ts.length using Nat.strongRecOn generalizing ts t with
  | ind n ih =>
      subst hn
      have hA : ∀ us t, us.length < ts.length → Annotation us t → P t :=
        fun us t hlt h => ih us.length hlt h rfl
      cases h with
      | union h =>
          cases h with
          | single h => exact h.kept hP hA
          | several h _ =>
              refine hP.unionOf fun t ht => ?_
              obtain ⟨us, hus, h⟩ := h.item ht
              exact h.kept hP fun vs t hvs => hA vs t (by omega)

end Grammar

namespace Ty

open Grammar

/-! ## Well-formed types -/

/-- A question that is answered with yes wherever reading does not put members
together, and by what it puts together, is answered with yes everywhere. -/
theorem kept_everywhere {q : Ty → Bool}
    (hq : ∀ t, t.isUnion = false → t.isInter = false → t.isDistinctNode = true →
      t.isBoundedNode = true → t.isWrittenNode = true → q t = true)
    (hu : ∀ ts, (∀ t ∈ ts, everywhere q t = true) → everywhere q (unionOf ts) = true)
    (hi : ∀ ts, (∀ t ∈ ts, everywhere q t = true) → everywhere q (interOf ts) = true) :
    Kept fun t => everywhere q t = true where
  primitive _ := everywhere_of_parts (hq _ rfl rfl rfl rfl rfl) (by simp [parts])
  any := everywhere_of_parts (hq _ rfl rfl rfl rfl rfl) (by simp [parts])
  never := everywhere_of_parts (hq _ rfl rfl rfl rfl rfl) (by simp [parts])
  dynamic := everywhere_of_parts (hq _ rfl rfl rfl rfl rfl) (by simp [parts])
  dynamicOf h := everywhere_of_parts (hq _ rfl rfl rfl rfl rfl) (by simpa [parts] using h)
  list hb h := everywhere_of_parts (hq _ rfl rfl rfl hb rfl) (by simpa [parts] using h)
  record hn h := everywhere_of_parts (hq _ rfl rfl (by simpa [isDistinctNode] using hn) rfl rfl)
    (by simpa [parts] using h)
  function hp hr := everywhere_of_parts (hq _ rfl rfl rfl rfl rfl)
    (by simpa [parts, or_imp, forall_and] using And.intro hp hr)
  prompt hx hi ho := everywhere_of_parts (hq _ rfl rfl rfl rfl hx)
    (by simpa [parts] using And.intro hi ho)
  unionOf h := hu _ h
  interOf h := hi _ h

/-- A type that has a derivation is well-formed. -/
theorem wellFormed_of_annotation {ts : List Token} {t : Ty} (h : Annotation ts t) :
    WellFormed t where
  normal := by
    refine h.kept (kept_everywhere ?_ ?_ ?_)
    · intro t hu hi _ _ _
      cases t <;> simp [isNormalNode, isUnion, isInter] at hu hi ⊢
    · exact fun _ => unionOf_inNormalForm
    · exact fun _ => interOf_inNormalForm
  fields := by
    refine h.kept (kept_everywhere ?_ ?_ ?_)
    · exact fun _ _ _ hd _ _ => hd
    · exact fun ts hts => everywhere_unionOf hts rfl fun _ _ _ _ => rfl
    · exact fun ts hts => everywhere_interOf hts rfl rfl fun _ _ _ _ => rfl
  bounds := by
    refine h.kept (kept_everywhere ?_ ?_ ?_)
    · exact fun _ _ _ _ hb _ => hb
    · exact fun ts hts => everywhere_unionOf hts rfl fun _ _ _ _ => rfl
    · exact fun ts hts => everywhere_interOf hts rfl rfl fun _ _ _ _ => rfl

/-- The temperatures in a type that has a derivation are as they are read. -/
theorem written_of_annotation {ts : List Token} {t : Ty} (h : Annotation ts t) :
    t.everywhere isWrittenNode = true := by
  refine h.kept (kept_everywhere ?_ ?_ ?_)
  · exact fun _ _ _ _ _ hx => hx
  · exact fun ts hts => everywhere_unionOf hts rfl fun _ _ _ _ => rfl
  · exact fun ts hts => everywhere_interOf hts rfl rfl fun _ _ _ _ => rfl

/-- A type that has a derivation equals itself. -/
theorem same_self_of_annotation {ts : List Token} {t : Ty} (h : Annotation ts t) :
    same t t = true := by
  have hwritten := written_of_annotation h
  exact same_self t (everywhere_mono (fun _ => isComparableNode_of_isWrittenNode) hwritten)

/-- A type that is read is well-formed. -/
theorem wellFormed_of_read {maxNesting : Int} {source : String} {t : Ty}
    (h : read maxNesting source = .ok t) : WellFormed t := by
  obtain ⟨eof, ts, -, ht⟩ := Reading.complete_yields (tokensOf_isLexed _ _)
    (fun i => Reading.typeWithin_yields maxNesting _ i) h
  exact wellFormed_of_annotation ht

theorem inNormalForm_of_read {maxNesting : Int} {source : String} {t : Ty}
    (h : read maxNesting source = .ok t) : t.inNormalForm = true := (wellFormed_of_read h).normal

theorem namesFieldsOnce_of_read {maxNesting : Int} {source : String} {t : Ty}
    (h : read maxNesting source = .ok t) : t.namesFieldsOnce = true := (wellFormed_of_read h).fields

end Ty

end TypedPrompt
