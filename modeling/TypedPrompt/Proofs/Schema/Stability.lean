/-
# `Proofs.Schema.Stability` — correcting once is enough

A corrected object is not changed by correcting it again (`correct_stable`).  What the second
pass finds is what the first one has made, and for each field it makes the same of that as the
first one made of what it found (`correctField_corrected`):

* an entry stands under the name of its field now, so it is found, and its value is left alone,
  since it has been coerced (`Value.coerce_coerce`) or is a default, which is of its type;
* a field without an entry finds none again, because no entry has been added whose name is the
  same but for case.  That is so if the names of the fields differ by more than case.
-/
import TypedPrompt.Proofs.Schema.RecordView
import TypedPrompt.Proofs.Schema.Sources

namespace TypedPrompt

/-! ## Coercing a value again -/

namespace Value

/-- A text that is no number stays as it is, and a number is not a text any more. -/
theorem numberOf_eq_ok {str : String} {w : Value} (h : numberOf str = .ok w) :
    w = .str str ∨ (∃ i, w = .int i) ∨ ∃ x, w = .real x := by
  unfold numberOf at h
  split at h
  · cases h
    exact .inl rfl
  · split at h
    · split at h
      · cases h
        exact .inr (.inl ⟨_, rfl⟩)
      · cases h
    · cases h
      split
      · exact .inr (.inr ⟨_, rfl⟩)
      · exact .inl rfl

/-- What a value is coerced to is left as it is. -/
theorem coerce_coerce {t : Ty} {v w : Value} (h : coerce t v = .ok w) : coerce t w = .ok w := by
  have hagain := h
  unfold coerce at h
  split at h
  · rcases numberOf_eq_ok h with rfl | ⟨i, rfl⟩ | ⟨x, rfl⟩
    · exact hagain
    · rfl
    · rfl
  · cases h
    rfl
  · cases h
    rfl
  · obtain ⟨text, -, rfl⟩ := OversizedInteger.map_eq_ok_iff.mp h
    rfl
  · cases h
    exact hagain

theorem coerce_of_contains {t : Ty} {v : Value} (h : t.Contains v) : coerce t v = .ok v :=
  coerce_of_fits ((Ty.fit_eq_fits_iff (Int.le_refl t.height)).mpr h)

/-- No text that an object has as an entry is an integer with more digits than may be read, and
no integer in the value has more than may be written. -/
def ShortIntegers (v : Value) : Prop :=
  (∀ es name str, v = .obj es → (name, .str str) ∈ es → ¬ IsOversized str) ∧ ¬ v.HoldsOverlong

end Value

namespace Schema

variable {s : Schema} {es es' : Entries Value} {f : SchemaField} {v : Value}

/-- The names of the fields differ by more than case. -/
def FoldDistinct (s : Schema) : Prop := (s.fields.map fun f => Text.caseFold f.name).Nodup

theorem exists_correct (h : v.ShortIntegers) : ∃ w, s.correct v = .ok w := by
  refine OversizedInteger.exists_ok_iff.mpr fun herror => ?_
  obtain ⟨es, rfl, f, -, key, u, hfound, hu⟩ := correct_eq_error_iff.mp herror
  have hmem := Entries.findLoosely?_mem hfound
  rcases hu with ⟨-, str, rfl, hlong⟩ | ⟨-, hlong⟩
  · exact h.1 es key str rfl hmem hlong
  · exact h.2 (Value.holdsOverlong_obj_iff.mpr ⟨(key, u), hmem, hlong⟩)

/-! ## The second pass -/

theorem correctField_of_find? (hv : es.find? f.name = some v) (hw : v.coerce f.type = .ok v) :
    correctField es f = .ok (some (f.name, v)) := by
  rw [correctField_eq_of_find? hv, hw]
  rfl

/-- A field that has come to nothing has not got an entry from another field. -/
theorem lacksVariants_corrected (hnames : s.FoldDistinct)
    (h : s.correct (.obj es) = .ok (.obj es')) (hf : f ∈ s.fields)
    (habsent : es'.find? f.name = none) : es'.LacksVariants f.name := by
  intro key hkey hfold
  obtain ⟨g, hg, rfl⟩ := List.mem_map.mp ((names_correct h).subset hkey)
  obtain rfl : g = f := List.inj_on_of_nodup_map hnames hg hf hfold
  have hhas : es'.has g.name = true := Entries.has_iff_mem_names.mpr hkey
  rw [Entries.has, habsent] at hhas
  cases hhas

/-- For each field the same is made of the corrected object as of the object. -/
theorem correctField_corrected (hnames : s.FoldDistinct) (hd : s.DefaultsFit)
    (h : s.correct (.obj es) = .ok (.obj es')) (hf : f ∈ s.fields) :
    correctField es' f = correctField es f := by
  obtain ⟨o, ho, hfound⟩ := find?_correct_field h hf
  rw [ho]
  cases hkey : es.keyFor? f.name with
  | some key =>
      obtain ⟨u, v, -, hv, rfl⟩ := correctField_of_key hkey ho
      exact correctField_of_find? hfound (Value.coerce_coerce hv)
  | none =>
      rw [correctField_of_no_key hkey] at ho
      obtain rfl := Except.ok.inj ho
      cases hdefault : f.default with
      | some d =>
          rw [hdefault] at hfound
          exact correctField_of_find? hfound (Value.coerce_of_contains (hd f hf d hdefault))
      | none =>
          rw [hdefault] at hfound
          have hlacks : es'.LacksVariants f.name := lacksVariants_corrected hnames h hf hfound
          rw [correctField, Entries.findLoosely?_eq_none_iff.mpr hlacks, hdefault]

/-- If the names of the fields differ by more than case and their defaults are of their types,
then a value without overlong integers is corrected, and what it is corrected to stays as it
is. -/
theorem correct_stable (hnames : s.FoldDistinct) (hd : s.DefaultsFit) (hv : v.ShortIntegers) :
    ∃ w, s.correct v = .ok w ∧ s.correct w = .ok w := by
  obtain ⟨w, hw⟩ := exists_correct (s := s) hv
  refine ⟨w, hw, ?_⟩
  cases v with
  | obj es =>
      obtain ⟨es', rfl, -⟩ := find?_correct hw
      rw [correct_congr fun f hf => correctField_corrected hnames hd hw hf]
      exact hw
  | _ =>
      cases hw
      rfl

/-- A number written as a text, a text that is no number, a default, a field that is absent,
and an entry that is not declared. -/
theorem correct_stable_person :
    let age : SchemaField := ⟨"age", .number, true, none, some Value.isPositive, none⟩
    let size : SchemaField := ⟨"size", .number, true, none, none, none⟩
    let tags : SchemaField := ⟨"tags", .list .string none none, true, none, none, some (.arr [])⟩
    let nick : SchemaField := ⟨"nick", .string, false, none, none, none⟩
    let s : Schema := ⟨"Person", [age, size, tags, nick], none, 4, by decide⟩
    let v := Value.obj [("note", .null), ("AGE", .str " 41"), ("size", .str "1_000")]
    let w := Value.obj [("age", .int 41), ("size", .str "1_000"), ("tags", .arr [])]
    s.FoldDistinct ∧ s.DefaultsFit ∧ v.ShortIntegers ∧ s.correct v = .ok w
      ∧ s.correct w = .ok w := by
  intro age size tags nick s v w
  have hnames : s.FoldDistinct := by
    unfold Schema.FoldDistinct
    decide
  have hd : s.DefaultsFit := by
    intro f hf d hdefault
    simp only [s, List.mem_cons, List.not_mem_nil, or_false] at hf
    rcases hf with rfl | rfl | rfl | rfl <;> cases hdefault
    exact Ty.contains_of_fit (show tags.type.fit 1 (.arr []) = .fits by decide)
  have hv : v.ShortIntegers := by
    refine ⟨?_, Value.not_holdsOverlong_of_integers rfl⟩
    rintro es name str hes hentry hlong
    obtain rfl := Value.obj.inj hes
    have hshort : str.length ≤ 5 := by
      simp only [List.mem_cons, Prod.mk.injEq, Value.str.injEq, List.not_mem_nil, or_false,
        reduceCtorEq, and_false, false_or] at hentry
      rcases hentry with ⟨-, rfl⟩ | ⟨-, rfl⟩ <;> decide
    exact absurd (hlong.lt_length.trans_le hshort) (by decide)
  have hw : s.correct v = .ok w := by
    cbv
  obtain ⟨u, hu, hagain⟩ := correct_stable hnames hd hv
  obtain rfl : w = u := Except.ok.inj (hw.symm.trans hu)
  exact ⟨hnames, hd, hv, hw, hagain⟩

end Schema

end TypedPrompt
