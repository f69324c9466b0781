/-
# `Proofs.Schema.Correction` — what correcting makes of an object

An object that is corrected holds, for each field of the schema, what `correctField`
makes of it, and nothing else (`find?_correct`).  So the question what becomes of a
field is a question about that field alone.

A valid object need not be corrected, and one may ask what happens if it is.  A value
of the right type is left as it is (`Value.coerce_of_fits`), so that a field which is
there under its own name keeps its value.  An absent field is another matter:
validation looks for a name as it is written, and correction takes a name that is the
same but for case as well.  `withDefaults_correct` says that both ways come to the same
value unless that makes a difference, and `correct_takes_variant` that it can.
-/
import TypedPrompt.Proofs.Schema.Decoding
import TypedPrompt.Proofs.Schema.Refusals

namespace TypedPrompt

/-- A value that fits a type is left as it is. -/
theorem Value.coerce_of_fits {room : Int} {t : Ty} {v : Value} (h : t.fit room v = .fits) :
    coerce t v = .ok v := by
  unfold coerce
  split
  -- a text where a number or a truth value is wanted does not fit
  · rw [Ty.fit] at h
    split at h <;> cases h
  · rw [Ty.fit] at h
    split at h <;> cases h
  · rfl
  · next hstr =>
      rw [Ty.fit] at h
      split at h
      · cases h
      · cases v with
        | str s => exact (hstr s rfl).elim
        | _ => cases h
  · rfl

namespace Entries

variable {es : Entries Value} {name : String}

/-- No entry has a name that is the same but for case. -/
def LacksVariants (es : Entries Value) (name : String) : Prop :=
  ∀ key ∈ es.names, Text.caseFold key ≠ Text.caseFold name

theorem findLoosely?_of_find? {v : Value} (h : es.find? name = some v) :
    es.findLoosely? name = some (name, v) := by
  rw [findLoosely?, h]

/-- Where no name is the same, even but for case, nothing is found. -/
theorem findLoosely?_of_lacksVariants (habsent : es.find? name = none)
    (h : es.LacksVariants name) : es.findLoosely? name = none := by
  rw [findLoosely?, habsent]
  refine List.find?_eq_none.mpr fun entry hentry => ?_
  simpa using h entry.1 (List.mem_map_of_mem hentry)

end Entries

namespace Schema

variable {s : Schema} {es es' : Entries Value} {f : SchemaField} {v w : Value}

/-! ## The fields of a corrected object -/

/-- What is there under the name of a field is brought to its type. -/
theorem correctField_eq_of_find? (hv : es.find? f.name = some v) :
    correctField es f = (v.coerce f.type).map fun w => some (f.name, w) := by
  rw [correctField, Entries.findLoosely?_of_find? hv]

/-- What is made for a field stands under the name of that field. -/
theorem correctField_name {o : Option (String × Value)} (h : correctField es f = .ok o) :
    ∀ entry ∈ o, entry.1 = f.name := by
  intro entry hentry
  unfold correctField at h
  split at h
  · next v _ =>
      cases hv : v.coerce f.type with
      | error e =>
          rw [hv] at h
          cases h
      | ok u =>
          rw [hv] at h
          cases h
          cases hentry
          rfl
  · cases h
    obtain ⟨d, -, rfl⟩ := Option.map_eq_some_iff.mp hentry
    rfl

/-- The entries that are made for some fields, looked up by the name of one of them. -/
theorem find?_filterMap {fs : List SchemaField} {found : List (Option (String × Value))}
    (hnames : (fs.map SchemaField.name).Nodup)
    (h : List.Forall₂ (fun f o => correctField es f = .ok o) fs found) :
    (∀ name ∉ fs.map SchemaField.name, Entries.find? (found.filterMap id) name = none)
      ∧ ∀ f ∈ fs, ∃ o, correctField es f = .ok o
          ∧ Entries.find? (found.filterMap id) f.name = o.map Prod.snd := by
  induction h with
  | nil => exact ⟨fun _ _ => rfl, fun _ hf => absurd hf List.not_mem_nil⟩
  | @cons f o fs found hfo _ ih =>
      rw [List.map_cons, List.nodup_cons] at hnames
      obtain ⟨hmissing, hfound⟩ := ih hnames.2
      cases o with
      | none =>
          refine ⟨fun name hn => hmissing name fun hm => hn (List.mem_cons_of_mem _ hm), ?_⟩
          intro g hg
          rcases List.mem_cons.mp hg with rfl | hg
          · exact ⟨none, hfo, hmissing _ hnames.1⟩
          · exact hfound g hg
      | some entry =>
          obtain ⟨key, v⟩ := entry
          obtain rfl : key = f.name := correctField_name hfo _ rfl
          refine ⟨fun name hn => ?_, fun g hg => ?_⟩
          · rw [List.map_cons, List.mem_cons, not_or] at hn
            exact (if_neg (Ne.symm hn.1)).trans (hmissing name hn.2)
          · rcases List.mem_cons.mp hg with rfl | hg
            · exact ⟨_, hfo, if_pos rfl⟩
            · have hne : f.name ≠ g.name := fun he => hnames.1 (he ▸ List.mem_map_of_mem hg)
              obtain ⟨o, ho, hlook⟩ := hfound g hg
              exact ⟨o, ho, (if_neg hne).trans hlook⟩

/-- An object is corrected by making the entry of each field, and nothing else. -/
theorem correct_eq_ok_iff : s.correct (.obj es) = .ok w
    ↔ ∃ found, List.Forall₂ (fun f o => correctField es f = .ok o) s.fields found
      ∧ .obj (found.filterMap id) = w := by
  rw [correct]
  simp only [← mapM_eq_ok_iff]
  cases s.fields.mapM (correctField es) <;> simp [Except.map]

/-- Objects of which the same is made for each field are corrected to the same. -/
theorem correct_congr (h : ∀ f ∈ s.fields, correctField es f = correctField es' f) :
    s.correct (.obj es) = s.correct (.obj es') := by
  rw [correct, correct, mapM_congr h]

/-- An object that is corrected has, for each field, what is made for that field. -/
theorem find?_correct (h : s.correct (.obj es) = .ok w) :
    ∃ es' : Entries Value, w = .obj es' ∧ ∀ f ∈ s.fields, ∃ o, correctField es f = .ok o
      ∧ es'.find? f.name = o.map Prod.snd := by
  obtain ⟨found, hfound, rfl⟩ := correct_eq_ok_iff.mp h
  exact ⟨_, rfl, (find?_filterMap s.distinct hfound).2⟩

theorem find?_correct_field (h : s.correct (.obj es) = .ok (.obj es')) (hf : f ∈ s.fields) :
    ∃ o, correctField es f = .ok o ∧ es'.find? f.name = o.map Prod.snd := by
  obtain ⟨_, heq, hfields⟩ := find?_correct h
  obtain rfl := Value.obj.inj heq
  exact hfields f hf

/-! ## Correcting a valid object -/

theorem fitField_of_isValid (h : s.isValid (.obj es) = true) (hf : f ∈ s.fields)
    (hv : es.find? f.name = some v) : s.fitField f v = .fits := by
  have hfine := isValid_obj_iff.mp h f hf
  simp only [entryViolation, hv] at hfine
  exact (fieldViolation_eq_none_iff.mp hfine).1

/-- The value of a field of a valid object has the right type already. -/
theorem correctField_of_isValid (h : s.isValid (.obj es) = true) (hf : f ∈ s.fields)
    (hv : es.find? f.name = some v) : correctField es f = .ok (some (f.name, v)) := by
  have hfits : f.type.fit s.maxValueDepth v = .fits := fitField_of_isValid h hf hv
  rw [correctField_eq_of_find? hv, Value.coerce_of_fits hfits]
  rfl

/-- Only an absent field can stand in the way of correcting a valid object. -/
theorem correct_eq_error_of_isValid (h : s.isValid (.obj es) = true) :
    s.correct (.obj es) = .error .mk
      ↔ ∃ f ∈ s.fields, es.has f.name = false ∧ OversizedFor es f := by
  rw [correct_eq_error_iff]
  constructor
  · rintro ⟨es', heq, f, hf, hover⟩
    obtain rfl := Value.obj.inj heq
    refine ⟨f, hf, ?_, hover⟩
    cases hv : es.find? f.name with
    | none => rw [Entries.has, hv, Option.isSome_none]
    | some v =>
        rw [← correctField_eq_error_iff, correctField_of_isValid h hf hv] at hover
        cases hover
  · rintro ⟨f, hf, -, hover⟩
    exact ⟨es, rfl, f, hf, hover⟩

/-- Filling in the defaults of a valid object, and of what correcting makes of it, comes to
the same value for each field that is there under its own name or that no name is the same
as but for case.  A valid object can be corrected, unless what takes the place of an absent
field cannot be brought to its type for an integer with too many digits.  All that is written
as JSON for that has fewer levels than the object. -/
theorem withDefaults_correct (h : s.isValid (.obj es) = true) :
    (s.correct (.obj es) = .error .mk
        ↔ ∃ f ∈ s.fields, es.has f.name = false ∧ OversizedFor es f)
      ∧ (∀ f ∈ s.fields, ∀ v, WritesFor es f v → v.nesting < (Value.obj es).nesting)
      ∧ ∀ w, s.correct (.obj es) = .ok w → ∃ es' : Entries Value, w = .obj es' ∧ ∀ f ∈ s.fields,
          es.has f.name = true ∨ es.LacksVariants f.name →
          (s.fillDefaults es').find? f.name = (s.fillDefaults es).find? f.name := by
  refine ⟨correct_eq_error_of_isValid h, fun _ _ _ => WritesFor.nesting_lt, fun w hw => ?_⟩
  obtain ⟨es', rfl, hfields⟩ := find?_correct hw
  refine ⟨es', rfl, fun f hf hplain => ?_⟩
  obtain ⟨o, ho, hfound⟩ := hfields f hf
  rw [find?_fillDefaults hf, find?_fillDefaults hf, hfound]
  cases hv : es.find? f.name with
  | some v =>
      rw [correctField_of_isValid h hf hv] at ho
      cases ho
      rfl
  | none =>
      have hlacks : es.LacksVariants f.name :=
        hplain.resolve_left (by simp [Entries.has, hv])
      rw [correctField, Entries.findLoosely?_of_lacksVariants hv hlacks] at ho
      cases ho
      cases f.default <;> rfl

/-- A number that is there, a list that is not, and an entry that is not declared. -/
theorem withDefaults_correct_person :
    let age : SchemaField := ⟨"age", .number, true, none, some Value.isPositive, none⟩
    let tags : SchemaField := ⟨"tags", .list .string none none, true, none, none, some (.arr [])⟩
    let s : Schema := ⟨"Person", [age, tags], none, 4, by decide⟩
    let es : Entries Value := [("note", .str "x"), ("age", .int 41)]
    s.isValid (.obj es) = true ∧ es.has "age" = true ∧ es.LacksVariants "tags"
      ∧ ∃ es' : Entries Value, s.correct (.obj es) = .ok (.obj es')
          ∧ (s.fillDefaults es').find? "age" = (s.fillDefaults es).find? "age"
          ∧ (s.fillDefaults es').find? "tags" = (s.fillDefaults es).find? "tags" := by
  intro age tags s es
  have h : s.isValid (.obj es) = true := by
    decide
  have hage : es.has age.name = true := by
    decide
  have htags : es.LacksVariants tags.name := by
    intro key hkey
    simp only [es, Entries.names, List.map_cons, List.map_nil, List.mem_cons, List.not_mem_nil,
      or_false] at hkey
    rcases hkey with rfl | rfl <;> decide
  have hw : s.correct (.obj es) = .ok (.obj [("age", .int 41), ("tags", .arr [])]) := by
    cbv
  obtain ⟨es', hes', hfields⟩ := (withDefaults_correct h).2.2 _ hw
  exact ⟨h, hage, htags, es', hes' ▸ hw, hfields age (by simp [s]) (.inl hage),
    hfields tags (by simp [s]) (.inr htags)⟩

/-- A name that is the same but for case makes the difference: an absent field is left to its
default, or takes the value that is found there. -/
theorem find?_correct_of_variant {key : String} (h : s.correct (.obj es) = .ok (.obj es'))
    (hf : f ∈ s.fields) (habsent : es.find? f.name = none)
    (hvariant : es.findLoosely? f.name = some (key, v)) :
    (s.fillDefaults es).find? f.name = f.default
      ∧ ∃ u, v.coerce f.type = .ok u ∧ (s.fillDefaults es').find? f.name = some u := by
  obtain ⟨o, ho, hfound⟩ := find?_correct_field h hf
  refine ⟨by rw [find?_fillDefaults hf, habsent, Option.none_or], ?_⟩
  rw [find?_fillDefaults hf, hfound]
  rw [correctField, hvariant] at ho
  cases hu : v.coerce f.type with
  | error e =>
      simp only [hu] at ho
      cases ho
  | ok u =>
      simp only [hu] at ho
      cases ho
      exact ⟨u, rfl, rfl⟩

/-- The name of an optional field in capitals: the object is valid without the field, and
correcting puts it in. -/
theorem correct_takes_variant :
    let name : SchemaField := ⟨"name", .string, false, none, none, none⟩
    let s : Schema := ⟨"Person", [name], none, 4, by decide⟩
    let es : Entries Value := [("NAME", .str "x")]
    s.isValid (.obj es) = true ∧ name ∈ s.fields
      ∧ s.correct (.obj es) = .ok (.obj [("name", .str "x")])
      ∧ (s.fillDefaults es).find? name.name = none
      ∧ (s.fillDefaults [("name", .str "x")]).find? name.name = some (.str "x") := by
  intro name s es
  refine ⟨by decide, by simp [s], ?_, by decide, rfl⟩
  cbv

end Schema

end TypedPrompt
