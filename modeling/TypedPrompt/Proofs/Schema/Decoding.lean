/-
# `Proofs.Schema.Decoding` — what decoding delivers

A text that is decoded with success gives a valid object in which nothing is left
to be filled in.  What is tested on the way is not what is delivered: the defaults
are filled in behind the test of a value that is taken as it is, and before it, as
well as behind it, where the value is corrected.  So validity has to survive the
filling in, and for that the defaults themselves have to pass (`DefaultsPass`).

Filling in is described by what is found under the name of a field afterwards
(`find?_fillDefaults`): the entry that was there, or else the default.  A violation
depends on nothing else (`entryViolation`).

The whole library is imported for the examples, which `cbv` runs by the equations of core
functions that it finds there.
-/
import Mathlib
import TypedPrompt.Schema.Decoding
import TypedPrompt.Schema.Predicate

namespace TypedPrompt.Schema

open OversizedInteger

variable {s : Schema} {es : Entries Value} {f : SchemaField} {v : Value}

/-- The default of each field is a value that the field accepts. -/
def DefaultsPass (s : Schema) : Prop :=
  ∀ f ∈ s.fields, ∀ d, f.default = some d → s.fieldViolation f d = none

theorem exists_obj_of_isValid (h : s.isValid v = true) : ∃ es, v = .obj es := by
  cases v with
  | obj es => exact ⟨es, rfl⟩
  | _ => simp [isValid, violations] at h

/-! ## Filling in defaults -/

theorem find?_fillDefault (es : Entries Value) (f : SchemaField) (name : String) :
    (fillDefault es f).find? name =
      (es.find? name).or (if f.name = name then f.default else none) := by
  cases hd : f.default with
  | none => simp [fillDefault, hd]
  | some d =>
      by_cases hn : f.name = name
      · subst hn
        cases hf : es.find? f.name <;> simp [fillDefault, hd, Entries.has, hf, Entries.find?_put]
      · by_cases hh : es.has f.name = true <;> simp [fillDefault, hd, hh, hn, Entries.find?_put]

/-- The default that goes to a name: that of the first field of this name to have one. -/
theorem find?_foldl_fillDefault (fs : List SchemaField) (es : Entries Value) (name : String) :
    (fs.foldl fillDefault es).find? name =
      (es.find? name).or (fs.findSome? fun f => if f.name = name then f.default else none) := by
  induction fs generalizing es with
  | nil => simp
  | cons f fs ih =>
      rw [List.foldl_cons, ih, find?_fillDefault, Option.or_assoc, List.findSome?_cons]
      cases (if f.name = name then f.default else none) <;> rfl

theorem findSome?_default {fs : List SchemaField} (hn : (fs.map SchemaField.name).Nodup)
    (hf : f ∈ fs) :
    (fs.findSome? fun g => if g.name = f.name then g.default else none) = f.default := by
  induction fs with
  | nil => exact absurd hf List.not_mem_nil
  | cons g fs ih =>
      simp only [List.map_cons, List.nodup_cons] at hn
      rcases List.mem_cons.mp hf with rfl | hf
      · have hrest : (fs.findSome? fun g => if g.name = f.name then g.default else none) = none :=
          List.findSome?_eq_none_iff.mpr fun g hg =>
            if_neg fun he : g.name = f.name => hn.1 (he ▸ List.mem_map_of_mem hg)
        rw [List.findSome?_cons, hrest, if_pos rfl]
        cases f.default <;> rfl
      · have hne : g.name ≠ f.name := fun he => hn.1 (he ▸ List.mem_map_of_mem hf)
        rw [List.findSome?_cons, if_neg hne]
        exact ih hn.2 hf

/-- Under the name of a field is the entry that was there, or else the default. -/
theorem find?_fillDefaults (hf : f ∈ s.fields) (es : Entries Value) :
    (s.fillDefaults es).find? f.name = (es.find? f.name).or f.default := by
  rw [fillDefaults, find?_foldl_fillDefault, findSome?_default s.distinct hf]

theorem has_fillDefaults (hf : f ∈ s.fields) (hd : f.default.isSome = true) (es : Entries Value) :
    (s.fillDefaults es).has f.name = true := by
  rw [Entries.has, find?_fillDefaults hf, Option.isSome_or, hd, Bool.or_true]

/-- Where all fields with a default are present, nothing is filled in. -/
theorem fillDefaults_eq_self
    (h : ∀ f ∈ s.fields, f.default.isSome = true → es.has f.name = true) :
    s.fillDefaults es = es := by
  have still : ∀ f ∈ s.fields, fillDefault es f = es := by
    intro f hf
    cases hd : f.default with
    | none => simp [fillDefault, hd]
    | some d => simp [fillDefault, hd, h f hf (by simp [hd])]
  have folded : ∀ fs : List SchemaField, (∀ f ∈ fs, fillDefault es f = es) →
      fs.foldl fillDefault es = es := by
    intro fs hfs
    induction fs with
    | nil => rfl
    | cons f fs ih =>
        rw [List.foldl_cons, hfs f List.mem_cons_self]
        exact ih fun g hg => hfs g (List.mem_cons_of_mem f hg)
  exact folded s.fields still

/-- No field of a valid object is at fault after the filling in. -/
theorem isValid_fillDefaults (hd : s.DefaultsPass) (h : s.isValid (.obj es) = true) :
    s.isValid (.obj (s.fillDefaults es)) = true := by
  refine isValid_obj_iff.mpr fun f hf => ?_
  have hold := isValid_obj_iff.mp h f hf
  unfold entryViolation at hold ⊢
  rw [find?_fillDefaults hf]
  cases he : es.find? f.name with
  | some v => simpa [he] using hold
  | none =>
      cases hdef : f.default with
      | some d => exact hd f hf d hdef
      | none => simpa [he] using hold

/-! ## The ways of decoding -/

/-- How decoding a value comes to an outcome.  What is wrong is put into words wherever it is
looked for, also where the words are not kept. -/
inductive Decodes (s : Schema) (v : Value) : Decoded → Prop
  | tooDeep : s.isTooDeep v = true → Violation.isSayable (.valueTooDeep s.maxValueDepth) = true →
      Decodes s v (.failed [.valueTooDeep s.maxValueDepth])
  | direct : s.isTooDeep v = false → s.isValid v = true →
      Decodes s v (.value (s.withDefaults v) .direct)
  | corrected {w : Value} : s.isTooDeep v = false → s.isValid v = false →
      (∀ e ∈ s.violations v, e.isSayable = true) → s.correct v = .ok w → s.isValid w = true →
      Decodes s v (.value (s.withDefaults w) .corrected)
  | failed {w : Value} : s.isTooDeep v = false → s.isValid v = false →
      (∀ e ∈ s.violations v, e.isSayable = true) → s.correct v = .ok w → s.isValid w = false →
      (∀ e ∈ s.violations w, e.isSayable = true) → Decodes s v (.failed (s.violations w))

theorem decodes_of_decodeValue {d : Decoded} (h : s.decodeValue v = .ok d) : s.Decodes v d := by
  unfold decodeValue at h
  split at h
  · next hdeep =>
      obtain ⟨es, hes, rfl⟩ := map_eq_ok_iff.mp h
      obtain ⟨hsayable, rfl⟩ := Violation.report_eq_ok_iff.mp hes
      exact .tooDeep hdeep (hsayable _ List.mem_cons_self)
  · next hdeep =>
      have hdeep := Bool.eq_false_iff.mpr hdeep
      obtain ⟨before, hbefore, h⟩ := bind_eq_ok_iff.mp h
      obtain ⟨hsayable, rfl⟩ := validate_eq_ok_iff.mp hbefore
      split at h
      · next hv =>
          cases h
          exact .direct hdeep hv
      · next hv =>
          have hv : s.isValid v = false := Bool.eq_false_iff.mpr hv
          obtain ⟨w, hw, h⟩ := bind_eq_ok_iff.mp h
          obtain ⟨behind, hbehind, h⟩ := bind_eq_ok_iff.mp h
          obtain ⟨hsayable', rfl⟩ := validate_eq_ok_iff.mp hbehind
          cases h
          split
          · next hvalid => exact .corrected hdeep hv hsayable hw hvalid
          · next hvalid =>
              exact .failed hdeep hv hsayable hw (Bool.eq_false_iff.mpr hvalid) hsayable'

theorem Decodes.decodeValue {d : Decoded} (h : s.Decodes v d) : s.decodeValue v = .ok d := by
  cases h with
  | tooDeep hdeep hsayable =>
      simp [Schema.decodeValue, hdeep, Violation.report, hsayable, Except.map]
  | direct hdeep hv =>
      simp [Schema.decodeValue, hdeep, validate_of_isValid hv, Bind.bind, Except.bind]
  | corrected hdeep hv hsayable hw hvalid =>
      have hbefore : s.validate v = .ok (s.violations v) := validate_eq_ok_iff.mpr ⟨hsayable, rfl⟩
      simp [Schema.decodeValue, hdeep, hbefore, violations_ne_nil_of_isValid hv, hw,
        validate_of_isValid hvalid, Bind.bind, Except.bind]
  | failed hdeep hv hsayable hw hvalid hsayable' =>
      have hbefore : s.validate v = .ok (s.violations v) := validate_eq_ok_iff.mpr ⟨hsayable, rfl⟩
      have hbehind := validate_eq_ok_iff.mpr ⟨hsayable', rfl⟩
      simp [Schema.decodeValue, hdeep, hbefore, violations_ne_nil_of_isValid hv, hw, hbehind,
        violations_ne_nil_of_isValid hvalid, Bind.bind, Except.bind]

/-- A decoded value comes from a valid one, with its defaults filled in; a failure
has its reasons. -/
inductive Outcome (s : Schema) : Decoded → Prop
  | value {es : Entries Value} {strategy : Strategy} : s.isValid (.obj es) = true →
      Outcome s (.value (.obj (s.fillDefaults es)) strategy)
  | failed {es : List Violation} : es ≠ [] → Outcome s (.failed es)

theorem outcome_of_isValid (h : s.isValid v = true) (strategy : Strategy) :
    s.Outcome (.value (s.withDefaults v) strategy) := by
  obtain ⟨es, rfl⟩ := exists_obj_of_isValid h
  exact .value h

theorem Outcome.throughFence {d : Decoded} (h : s.Outcome d) : s.Outcome d.throughFence := by
  cases h with
  | value h => exact .value h
  | failed h => exact .failed h

theorem decodeValue_outcome {d : Decoded} (h : s.decodeValue v = .ok d) : s.Outcome d := by
  cases decodes_of_decodeValue h with
  | tooDeep => exact .failed (List.cons_ne_nil _ _)
  | direct _ hv => exact outcome_of_isValid hv .direct
  | corrected _ _ _ _ hvalid => exact outcome_of_isValid hvalid .corrected
  | failed _ _ _ _ hvalid => exact .failed (violations_ne_nil_of_isValid hvalid)

theorem decode_outcome {text : List Char} {d : Decoded} (h : s.decode text = .ok d) :
    s.Outcome d := by
  unfold decode at h
  split at h
  · next v _ =>
      cases hv : s.decodeValue v with
      | error e => rw [hv] at h; cases h
      | ok d' =>
          rw [hv] at h
          cases h
          exact (decodeValue_outcome hv).throughFence
  · exact decodeValue_outcome h
  · cases h
  · cases h
    exact .failed (by simp)

theorem strategy_name_mem (strategy : Strategy) :
    strategy.name ∈ ["direct", "corrected", "fenced"] := by
  cases strategy <;> simp [Strategy.name]

/-- If the defaults of a schema pass, then decoding delivers either a valid object in
which every field with a default is present and nothing is left to be filled in, or
no value and at least one violation. -/
theorem decode_isValid_or_failed (hd : s.DefaultsPass) {text : List Char} {d : Decoded}
    (h : s.decode text = .ok d) :
    (d.isSuccess = true →
      d.violations = [] ∧ d.strategyName ∈ ["direct", "corrected", "fenced"] ∧
      ∃ es : Entries Value, d.payload = .obj es ∧ s.isValid (.obj es) = true ∧
        (∀ f ∈ s.fields, f.default.isSome = true → es.has f.name = true) ∧
        s.withDefaults (.obj es) = .obj es) ∧
    (d.isSuccess = false →
      d.payload = .null ∧ d.strategyName = "failed" ∧ d.violations ≠ []) := by
  cases decode_outcome h with
  | @value es strategy hv =>
      have present : ∀ f ∈ s.fields, f.default.isSome = true →
          (s.fillDefaults es).has f.name = true := fun f hf hs => has_fillDefaults hf hs es
      refine ⟨fun _ => ⟨rfl, strategy_name_mem strategy, s.fillDefaults es, rfl,
        isValid_fillDefaults hd hv, present, ?_⟩, fun hf => by simp [Decoded.isSuccess] at hf⟩
      rw [withDefaults, fillDefaults_eq_self present]
  | failed hv => exact ⟨fun hs => by simp [Decoded.isSuccess] at hs, fun _ => ⟨rfl, rfl, hv⟩⟩

/-- A fenced block whose key and number have to be corrected, with a default to fill in. -/
theorem decode_isValid_or_failed_fenced :
    let age : SchemaField := ⟨"age", .number, true, none, some Value.isPositive, none⟩
    let tags : SchemaField := ⟨"tags", .list .string none none, true, none, none, some (.arr [])⟩
    let s : Schema := ⟨"Person", [age, tags], none, 4, by decide⟩
    s.DefaultsPass ∧
      ∃ d, s.decode "```json\n\x7b\"Age\": \"41\"\x7d\n```".toList = .ok d ∧
        d.strategyName = "fenced" ∧
        ∃ es : Entries Value, d.payload = .obj es ∧ s.isValid (.obj es) = true ∧
          es.has "tags" = true := by
  intro age tags s
  have hd : s.DefaultsPass := by
    intro f hf d hdef
    simp only [s, List.mem_cons, List.not_mem_nil, or_false] at hf
    rcases hf with rfl | rfl
    · cases hdef
    · cases hdef
      rfl
  have h : s.decode "```json\n\x7b\"Age\": \"41\"\x7d\n```".toList
      = .ok (.value (.obj [("age", .int 41), ("tags", .arr [])]) .fenced) := by
    cbv
  obtain ⟨-, -, es, hes, hv, hdefaults, -⟩ := (decode_isValid_or_failed hd h).1 rfl
  exact ⟨hd, _, h, rfl, es, hes, hv, hdefaults tags (by simp [s]) rfl⟩

end TypedPrompt.Schema
