/-
# `Proofs.Schema.Sources` — the entries that a corrected object is made from

An object is corrected field by field, and each field looks for its entry on its own: the one
of its name, or else the first one whose name is the same but for case.  `keyFor?` is the name
of that entry.  What a field holds after the correction is the value of that entry, coerced,
or the default if there is no such entry (`find?_correct_of_key`, `find?_correct_of_no_key`).

No account is kept of the entries that are taken.  Fields whose names differ by more than case
cannot come upon the same entry, and neither can two fields that both have one of their own.
But of two fields with the same name but for case the one that has none takes the first entry
that there is for either of them, whether the other takes it or not (`shared_key_iff`).
-/
import TypedPrompt.Proofs.Schema.Correction

namespace TypedPrompt

namespace Entries

variable {es : Entries Value} {name other key : String} {v : Value}

/-! ## The entry that is found for a name -/

/-- The first entry whose name has a property is the entry of its name. -/
theorem find?_of_search {p : String → Bool}
    (h : List.find? (fun entry : String × Value => p entry.1) es = some (key, v)) :
    es.find? key = some v := by
  induction es with
  | nil => cases h
  | cons entry es ih =>
      obtain ⟨first, u⟩ := entry
      have hkey : p key = true := List.find?_some (p := fun entry : String × Value => p entry.1) h
      rw [List.find?_cons] at h
      cases hfirst : p first with
      | true =>
          simp only [hfirst, Option.some.injEq, Prod.mk.injEq] at h
          obtain ⟨rfl, rfl⟩ := h
          exact if_pos rfl
      | false =>
          simp only [hfirst] at h
          have hne : first ≠ key := by
            rintro rfl
            rw [hfirst] at hkey
            cases hkey
          rw [find?, if_neg hne]
          exact ih h

theorem find?_of_findLoosely? (h : es.findLoosely? name = some (key, v)) :
    es.find? key = some v := by
  unfold findLoosely? at h
  split at h
  · next hv =>
      cases h
      exact hv
  · exact find?_of_search (p := fun key => Text.caseFold key == Text.caseFold name) h

theorem caseFold_of_findLoosely? {entry : String × Value}
    (h : es.findLoosely? name = some entry) : Text.caseFold entry.1 = Text.caseFold name := by
  unfold findLoosely? at h
  split at h
  · cases h
    rfl
  · simpa using List.find?_some h

/-- Nothing is found exactly where no name is the same, even but for case. -/
theorem findLoosely?_eq_none_iff : es.findLoosely? name = none ↔ es.LacksVariants name := by
  constructor
  · intro h key hkey
    obtain ⟨entry, hentry, rfl⟩ := List.mem_map.mp hkey
    unfold findLoosely? at h
    split at h
    · cases h
    · simpa using List.find?_eq_none.mp h entry hentry
  · intro h
    refine findLoosely?_of_lacksVariants (Option.eq_none_iff_forall_ne_some.mpr ?_) h
    intro v hv
    exact h name (List.mem_map_of_mem (mem_of_find? hv)) rfl

/-! ## The names of the entries that are found -/

/-- The name of the entry that is found for a name. -/
def keyFor? (es : Entries Value) (name : String) : Option String :=
  (es.findLoosely? name).map Prod.fst

/-- The first of the names that is the same but for case. -/
def firstVariant? (es : Entries Value) (name : String) : Option String :=
  es.names.find? fun key => Text.caseFold key == Text.caseFold name

theorem firstVariant?_congr (h : Text.caseFold name = Text.caseFold other) :
    es.firstVariant? name = es.firstVariant? other := by
  rw [firstVariant?, firstVariant?, h]

/-- An entry is found under its own name, or else under the first variant of it. -/
theorem keyFor?_eq (es : Entries Value) (name : String) :
    es.keyFor? name = if es.has name then some name else es.firstVariant? name := by
  unfold keyFor? findLoosely? has firstVariant? names
  cases es.find? name with
  | some v => rfl
  | none => simp [List.find?_map]

theorem caseFold_of_keyFor? (h : es.keyFor? name = some key) :
    Text.caseFold key = Text.caseFold name := by
  obtain ⟨entry, hentry, rfl⟩ := Option.map_eq_some_iff.mp h
  exact caseFold_of_findLoosely? hentry

theorem eq_of_keyFor? (h : es.keyFor? name = some key) (hhas : es.has name = true) :
    name = key := by
  rw [keyFor?_eq, if_pos hhas] at h
  exact Option.some.inj h

/-- Two names come upon the same entry exactly if they are the same but for case and it is the
first one that there is for them, also where one of them has an entry of its own. -/
theorem shared_keyFor?_iff (hne : name ≠ other) :
    es.keyFor? name = some key ∧ es.keyFor? other = some key
      ↔ Text.caseFold name = Text.caseFold other ∧ es.firstVariant? name = some key
        ∧ (es.has name = true → name = key) ∧ (es.has other = true → other = key) := by
  constructor
  · rintro ⟨hname, hother⟩
    have hfold : Text.caseFold name = Text.caseFold other :=
      (caseFold_of_keyFor? hname).symm.trans (caseFold_of_keyFor? hother)
    refine ⟨hfold, ?_, eq_of_keyFor? hname, eq_of_keyFor? hother⟩
    -- one of them has no entry of its own
    by_cases hhas : es.has name = true
    · have hlacks : ¬ es.has other = true := fun h =>
        hne ((eq_of_keyFor? hname hhas).trans (eq_of_keyFor? hother h).symm)
      rw [keyFor?_eq, if_neg hlacks] at hother
      exact (firstVariant?_congr hfold).trans hother
    · rwa [keyFor?_eq, if_neg hhas] at hname
  · rintro ⟨hfold, hfirst, hname, hother⟩
    rw [keyFor?_eq, keyFor?_eq, ← firstVariant?_congr hfold]
    constructor
    · split
      · next h => rw [hname h]
      · exact hfirst
    · split
      · next h => rw [hother h]
      · exact hfirst

end Entries

namespace Schema

variable {s : Schema} {es es' : Entries Value} {f : SchemaField} {key : String}

/-! ## What a corrected object consists of -/

theorem names_filterMap {fs : List SchemaField} {found : List (Option (String × Value))}
    (h : List.Forall₂ (fun f o => correctField es f = .ok o) fs found) :
    (Entries.names (found.filterMap id)).Sublist (fs.map SchemaField.name) := by
  induction h with
  | nil => exact .slnil
  | @cons f o fs found ho _ ih =>
      cases o with
      | none => exact ih.cons f.name
      | some entry =>
          obtain ⟨key, v⟩ := entry
          obtain rfl : key = f.name := correctField_name ho _ rfl
          exact ih.cons_cons f.name

/-- The names of a corrected object are names of fields, in their order. -/
theorem names_correct (h : s.correct (.obj es) = .ok (.obj es')) :
    es'.names.Sublist (s.fields.map SchemaField.name) := by
  obtain ⟨found, hfound, heq⟩ := correct_eq_ok_iff.mp h
  obtain rfl := Value.obj.inj heq
  exact names_filterMap hfound

/-- For a field that finds an entry, the value of the entry is coerced. -/
theorem correctField_of_key {o : Option (String × Value)} (hkey : es.keyFor? f.name = some key)
    (h : correctField es f = .ok o) :
    ∃ u v, es.find? key = some u ∧ u.coerce f.type = .ok v ∧ o = some (f.name, v) := by
  obtain ⟨⟨_, u⟩, hentry, rfl⟩ := Option.map_eq_some_iff.mp hkey
  rw [correctField, hentry] at h
  cases hu : u.coerce f.type with
  | error e =>
      simp only [hu] at h
      cases h
  | ok v =>
      simp only [hu] at h
      cases h
      exact ⟨u, v, Entries.find?_of_findLoosely? hentry, hu, rfl⟩

/-- For a field that finds none, there is the default. -/
theorem correctField_of_no_key (hkey : es.keyFor? f.name = none) :
    correctField es f = .ok (f.default.map fun d => (f.name, d)) := by
  rw [correctField, Option.map_eq_none_iff.mp hkey]

theorem find?_correct_of_key (h : s.correct (.obj es) = .ok (.obj es')) (hf : f ∈ s.fields)
    (hkey : es.keyFor? f.name = some key) :
    ∃ u v, es.find? key = some u ∧ u.coerce f.type = .ok v ∧ es'.find? f.name = some v := by
  obtain ⟨o, ho, hfound⟩ := find?_correct_field h hf
  obtain ⟨u, v, hu, hv, rfl⟩ := correctField_of_key hkey ho
  exact ⟨u, v, hu, hv, hfound⟩

theorem find?_correct_of_no_key (h : s.correct (.obj es) = .ok (.obj es')) (hf : f ∈ s.fields)
    (hkey : es.keyFor? f.name = none) : es'.find? f.name = f.default := by
  obtain ⟨o, ho, hfound⟩ := find?_correct_field h hf
  rw [correctField_of_no_key hkey] at ho
  cases ho
  rw [hfound]
  cases f.default <;> rfl

/-- A corrected object holds nothing but fields; what it holds for them comes from the entries
that they find, and from the defaults.  The entries are different for different fields, except
for fields whose names are the same but for case: two of these share the first entry that there
is for either of them, unless one of them has an entry of its own behind it. -/
theorem shared_key_iff (h : s.correct (.obj es) = .ok (.obj es')) :
    es'.names.Sublist (s.fields.map SchemaField.name)
    ∧ (∀ f ∈ s.fields,
      (∀ key, es.keyFor? f.name = some key →
        ∃ u v, es.find? key = some u ∧ u.coerce f.type = .ok v ∧ es'.find? f.name = some v)
      ∧ (es.keyFor? f.name = none → es'.find? f.name = f.default))
    ∧ ∀ f ∈ s.fields, ∀ g ∈ s.fields, f ≠ g → ∀ key,
      (es.keyFor? f.name = some key ∧ es.keyFor? g.name = some key
        ↔ Text.caseFold f.name = Text.caseFold g.name ∧ es.firstVariant? f.name = some key
          ∧ (es.has f.name = true → f.name = key) ∧ (es.has g.name = true → g.name = key)) := by
  refine ⟨names_correct h,
    fun f hf => ⟨fun key => find?_correct_of_key h hf, find?_correct_of_no_key h hf⟩, ?_⟩
  intro f hf g hg hne key
  have hnames : f.name ≠ g.name := fun heq =>
    hne (List.inj_on_of_nodup_map s.distinct hf hg heq)
  exact Entries.shared_keyFor?_iff hnames

/-- Three spellings of one name, of which the object has the second and the third: these keep
their own entries, and the first one takes that of the second. -/
theorem shared_key_iff_spellings :
    let lower : SchemaField := ⟨"id", .number, true, none, none, none⟩
    let title : SchemaField := ⟨"Id", .number, true, none, none, none⟩
    let upper : SchemaField := ⟨"ID", .string, true, none, none, none⟩
    let s : Schema := ⟨"Ids", [lower, title, upper], none, 4, by decide⟩
    let es : Entries Value := [("Id", .str "1"), ("ID", .int 2)]
    s.correct (.obj es) = .ok (.obj [("id", .int 1), ("Id", .int 1), ("ID", .str "2")])
      ∧ (es.keyFor? lower.name = some "Id" ∧ es.keyFor? title.name = some "Id")
      ∧ ¬ (es.keyFor? lower.name = some "ID" ∧ es.keyFor? upper.name = some "ID") := by
  intro lower title upper s es
  have h : s.correct (.obj es)
      = .ok (.obj [("id", .int 1), ("Id", .int 1), ("ID", .str "2")]) := by
    cbv
  obtain ⟨-, -, hshared⟩ := shared_key_iff h
  have hlower : lower ∈ s.fields := by simp [s]
  have htitle : lower ≠ title := by simp [lower, title]
  have hupper : lower ≠ upper := by simp [lower, upper]
  refine ⟨h, (hshared lower hlower title (by simp [s]) htitle "Id").mpr ?_, fun hboth => ?_⟩
  · exact ⟨by decide, by decide, by decide, by decide⟩
  · have hfirst := ((hshared lower hlower upper (by simp [s]) hupper "ID").mp hboth).2.1
    exact absurd hfirst (by decide)

/-- The name of a field in capitals is the name of another field: the one entry of the object
becomes the value of both, and the field that was missing is there. -/
theorem correct_uses_entry_twice :
    let lower : SchemaField := ⟨"a", .number, true, none, none, none⟩
    let upper : SchemaField := ⟨"A", .number, true, none, none, none⟩
    let s : Schema := ⟨"S", [lower, upper], none, 4, by decide⟩
    let es : Entries Value := [("a", .int 1)]
    lower ∈ s.fields ∧ upper ∈ s.fields ∧ lower ≠ upper
      ∧ s.violations (.obj es) = [.missing "A"]
      ∧ s.correct (.obj es) = .ok (.obj [("a", .int 1), ("A", .int 1)])
      ∧ es.keyFor? lower.name = some "a" ∧ es.keyFor? upper.name = some "a" := by
  intro lower upper s es
  refine ⟨by simp [s], by simp [s], by simp [lower, upper], rfl, ?_, by decide, by decide⟩
  cbv

end Schema

end TypedPrompt
