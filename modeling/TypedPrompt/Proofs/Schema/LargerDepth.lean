/-
# `Proofs.Schema.LargerDepth` — more room does not change a verdict

Where the room gives out, the whole test ends.  So with more room a value is held against
a type as before, unless the room gave out (`fit_persists`); and it does not give out
where it suffices for the height of the type.

For decoding more has to be shown.  The limit is consulted up to three times: for the
value as a whole, for the value as it is and for the corrected one.  A value that had to
be corrected under the smaller limit might be valid as it is under the larger one, and
then it would be another value; or what is wrong with it might be put into other words,
which might not be sayable.  But a field that is too deep for its type stays so when it is
corrected.  So if the corrected value passes under the smaller limit, no field was too
deep under it before, and the same is wrong under both (`violations_withDepth`).
-/
import TypedPrompt.Proofs.Schema.Correction
import TypedPrompt.Proofs.Schema.Depth

namespace TypedPrompt

namespace Fit

variable {a a' b b' : Fit}

/-- The second outcome is the first one, unless the room gave out there. -/
def Persists (a b : Fit) : Prop := b = a ∨ a = tooDeep

theorem Persists.refl (a : Fit) : a.Persists a := .inl rfl

theorem Persists.both (ha : a.Persists a') (hb : b.Persists b') :
    (a.both b).Persists (a'.both b') := by
  rcases ha with rfl | rfl
  · cases a' with
    | fits => exact hb
    | differs | tooDeep => exact .refl _
  · exact .inr rfl

theorem Persists.either (ha : a.Persists a') (hb : b.Persists b') :
    (a.either b).Persists (a'.either b') := by
  rcases ha with rfl | rfl
  · cases a' with
    | differs => exact hb
    | fits | tooDeep => exact .refl _
  · exact .inr rfl

theorem persists_all {α : Type} {f g : α → Fit} :
    ∀ xs : List α, (∀ x ∈ xs, (f x).Persists (g x)) → (all (xs.map f)).Persists (all (xs.map g))
  | [], _ => .refl _
  | x :: xs, h =>
      (h x List.mem_cons_self).both (persists_all xs fun y hy => h y (List.mem_cons_of_mem x hy))

end Fit

namespace Ty

mutual

theorem fit_persists : ∀ (t : Ty) {n m : Int} {v : Value}, n ≤ m →
    (fit n t v).Persists (fit m t v) := by
  intro t n m v h
  by_cases hn : n < 0
  · exact .inr (by rw [fit.eq_def, if_pos hn])
  have hm : ¬ m < 0 := by omega
  have hless : n - 1 ≤ m - 1 := by omega
  rw [fit.eq_def, if_neg hn, fit.eq_def m, if_neg hm]
  cases t with
  | primitive | any | dynamic | never | function | prompt => exact .refl _
  | dynamicOf c => exact fit_persists c hless
  | list e least most =>
      cases v with
      | arr items =>
          exact (Fit.Persists.refl _).both (Fit.persists_all items fun x _ => fit_persists e hless)
      | _ => exact .refl _
  | union ts => exact fitSome_persists ts hless
  | inter ts => exact fitEach_persists ts hless
  | record fs isOpen =>
      cases v with
      | obj es => exact (fitFields_persists fs hless).both (.refl _)
      | _ => exact .refl _

theorem fitSome_persists : ∀ (ts : List Ty) {n m : Int} {v : Value}, n ≤ m →
    (fitSome n ts v).Persists (fitSome m ts v)
  | [], _, _, _, _ => .refl _
  | t :: ts, _, _, _, h => (fit_persists t h).either (fitSome_persists ts h)

theorem fitEach_persists : ∀ (ts : List Ty) {n m : Int} {v : Value}, n ≤ m →
    (fitEach n ts v).Persists (fitEach m ts v)
  | [], _, _, _, _ => .refl _
  | t :: ts, _, _, _, h => (fit_persists t h).both (fitEach_persists ts h)

theorem fitFields_persists : ∀ (fs : List (Field Ty)) {n m : Int} {es : Entries Value}, n ≤ m →
    (fitFields n fs es).Persists (fitFields m fs es)
  | [], _, _, _, _ => .refl _
  | ⟨name, t, isOptional, _⟩ :: fs, n, m, es, h => by
      refine Fit.Persists.both ?_ (fitFields_persists fs h)
      cases Entries.find? es name with
      | some v => exact fit_persists t h
      | none => exact .refl _

end

theorem fit_of_larger_room {t : Ty} {v : Value} {n m : Int} (h : n ≤ m)
    (hne : t.fit n v ≠ .tooDeep) : t.fit m v = t.fit n v :=
  (fit_persists t h).resolve_right hne

theorem fit_primitive_eq_tooDeep_iff {p : Primitive} {v : Value} {n : Int} :
    fit n (primitive p) v = .tooDeep ↔ n < 0 := by
  rw [fit]
  split
  · next h => exact iff_of_true rfl h
  · next h => exact iff_of_false (Fit.ofBool_ne_tooDeep _) h

/-- What is too deep for a type is so when it has been brought to the type: either there is no
room at all, or it is left as it is. -/
theorem fit_coerce_of_tooDeep {t : Ty} {v w : Value} {n : Int} (h : t.fit n v = .tooDeep)
    (hw : v.coerce t = .ok w) : t.fit n w = .tooDeep := by
  cases t with
  | primitive p => exact fit_primitive_eq_tooDeep_iff.mpr (fit_primitive_eq_tooDeep_iff.mp h)
  | _ =>
      obtain rfl := Except.ok.inj hw
      exact h

end Ty

namespace Schema

variable {s : Schema} {es : Entries Value} {f : SchemaField} {v w : Value} {depth : Int}

/-- The schema with another limit on the depth of values. -/
def withDepth (s : Schema) (depth : Int) : Schema := { s with maxValueDepth := depth }

/-- A value is judged as before, unless it was too deep. -/
theorem fieldViolation_withDepth (h : s.maxValueDepth ≤ depth) (hne : s.fitField f v ≠ .tooDeep) :
    (s.withDepth depth).fieldViolation f v = s.fieldViolation f v := by
  have hsame : (s.withDepth depth).fitField f v = s.fitField f v := Ty.fit_of_larger_room h hne
  unfold fieldViolation
  rw [hsame]
  cases hfit : s.fitField f v with
  | tooDeep => exact absurd hfit hne
  | differs | fits => rfl

theorem isTooDeep_withDepth (h : s.maxValueDepth ≤ depth) (hv : s.isTooDeep v = false) :
    (s.withDepth depth).isTooDeep v = false := by
  refine (Value.nestedDeeperThan_eq_false_iff _ _).mpr ?_
  have hle : s.maxValueDepth + 1 ≤ (s.withDepth depth).maxValueDepth + 1 := Int.add_le_add_right h 1
  exact ((Value.nestedDeeperThan_eq_false_iff _ _).mp hv).imp_right fun hn => Int.le_trans hn hle

/-- Where no field is too deep, the same is wrong with an object. -/
theorem violations_obj_withDepth (h : s.maxValueDepth ≤ depth)
    (hne : ∀ f ∈ s.fields, ∀ v, es.find? f.name = some v → s.fitField f v ≠ .tooDeep) :
    (s.withDepth depth).violations (.obj es) = s.violations (.obj es) := by
  refine List.filterMap_congr fun f hf => ?_
  unfold entryViolation
  cases hfind : Entries.find? es f.name with
  | none => rfl
  | some v => exact fieldViolation_withDepth h (hne f hf v hfind)

/-- What is valid stays valid. -/
theorem isValid_withDepth (h : s.maxValueDepth ≤ depth) (hv : s.isValid v = true) :
    (s.withDepth depth).isValid v = true := by
  obtain ⟨es, rfl⟩ := exists_obj_of_isValid hv
  have hne : ∀ f ∈ s.fields, ∀ v, Entries.find? es f.name = some v → s.fitField f v ≠ .tooDeep :=
    fun f hf v hfind => by simp [fitField_of_isValid hv hf hfind]
  rwa [isValid, violations_obj_withDepth h hne]

/-- What is corrected has the same wrong with it under the larger limit, if the outcome is
valid: where it was too deep, correcting would not have helped. -/
theorem violations_withDepth (h : s.maxValueDepth ≤ depth) (hcorrect : s.correct v = .ok w)
    (hw : s.isValid w = true) : (s.withDepth depth).violations v = s.violations v := by
  cases v with
  | obj es =>
      obtain ⟨es', rfl, hfields⟩ := find?_correct hcorrect
      refine violations_obj_withDepth h fun f hf v hfind hdeep => ?_
      obtain ⟨o, ho, hfound⟩ := hfields f hf
      rw [correctField_eq_of_find? hfind] at ho
      obtain ⟨u, hu, rfl⟩ := OversizedInteger.map_eq_ok_iff.mp ho
      have hfits : s.fitField f u = .fits := fitField_of_isValid hw hf hfound
      cases hfits.symm.trans (Ty.fit_coerce_of_tooDeep hdeep hu)
  | _ => rfl

/-! ## Decoding -/

variable {strategy : Strategy} {text : List Char}

/-- A value is obtained from what is read, whichever part of the text that is. -/
theorem decode_eq_value_iff : s.decode text = .ok (.value w strategy)
    ↔ ∃ v fenced way, readLoosely text = .ok (v, fenced)
      ∧ s.decodeValue v = .ok (.value w way) ∧ (if fenced then .fenced else way) = strategy := by
  cases hread : readLoosely text with
  | error unread =>
      obtain ⟨part, fault⟩ := unread
      cases fault <;> simp [decode, hread]
  | ok found =>
      obtain ⟨v, fenced⟩ := found
      cases fenced with
      | false => simp [decode, hread]
      | true =>
          cases hv : s.decodeValue v with
          | error e => simp [decode, hread, hv, Except.map]
          | ok d => cases d <;> simp [decode, hread, hv, Except.map, Decoded.throughFence]

theorem decodeValue_withDepth (h : s.maxValueDepth ≤ depth)
    (hv : s.decodeValue v = .ok (.value w strategy)) :
    (s.withDepth depth).decodeValue v = .ok (.value w strategy) := by
  refine Decodes.decodeValue ?_
  cases decodes_of_decodeValue hv with
  | direct hdeep hvalid =>
      exact .direct (isTooDeep_withDepth h hdeep) (isValid_withDepth h hvalid)
  | corrected hdeep hinvalid hsayable hcorrect hu =>
      have hsame := violations_withDepth h hcorrect hu
      refine .corrected (isTooDeep_withDepth h hdeep) ?_ ?_ hcorrect (isValid_withDepth h hu)
      -- what was wrong is wrong now, and no more
      · rwa [isValid, hsame]
      · rwa [hsame]

theorem decode_withDepth (h : s.maxValueDepth ≤ depth)
    (hd : s.decode text = .ok (.value w strategy)) :
    (s.withDepth depth).decode text = .ok (.value w strategy) := by
  obtain ⟨v, fenced, way, hread, hv, hstrategy⟩ := decode_eq_value_iff.mp hd
  exact decode_eq_value_iff.mpr ⟨v, fenced, way, hread, decodeValue_withDepth h hv, hstrategy⟩

/-- Raising the limit does not change a verdict that has been reached: a value that fits a
type, or does not, does so with more room, and with room for the height of the type there is
a verdict; a text that is decoded is decoded to the same value, in the same way. -/
theorem decode_of_larger_depth :
    (∀ (t : Ty) (v : Value) (n m : Int), n ≤ m → t.fit n v ≠ .tooDeep → t.fit m v = t.fit n v)
      ∧ (∀ (t : Ty) (v : Value) (n : Int), (t.height : Int) ≤ n → t.fit n v ≠ .tooDeep)
      ∧ ∀ (s : Schema) (text : List Char) (m : Int) (v : Value) (strategy : Strategy),
          s.maxValueDepth ≤ m → s.decode text = .ok (.value v strategy) →
          (s.withDepth m).decode text = .ok (.value v strategy) :=
  ⟨fun _ _ _ _ => Ty.fit_of_larger_room, fun t v n => Ty.fit_ne_tooDeep t n v,
    fun _ _ _ _ _ => decode_withDepth⟩

/-- A list of optional numbers with no room to spare, in a fenced block and under a key that
has to be corrected: it is held against its type, and decoded, with more room as well. -/
theorem decode_of_larger_depth_fenced :
    let numbers : Ty := .list (.union [.number, .null]) none none
    let s : Schema := ⟨"S", [⟨"xs", numbers, true, none, none, none⟩], none, 2, by decide⟩
    let v := Value.obj [("xs", .arr [.int 1, .null])]
    (numbers.fit 2 (.arr [.int 1, .null]) = .fits ∧ numbers.fit 64 (.arr [.int 1, .null]) = .fits)
      ∧ numbers.fit numbers.height (.str "") ≠ .tooDeep
      ∧ s.decode "```json\n\x7b\"XS\": [1, null]\x7d\n```".toList = .ok (.value v .fenced)
      ∧ (s.withDepth 64).decode "```json\n\x7b\"XS\": [1, null]\x7d\n```".toList
        = .ok (.value v .fenced) := by
  intro numbers s v
  have hfits : numbers.fit 2 (.arr [.int 1, .null]) = .fits := by
    decide
  have hne : numbers.fit 2 (.arr [.int 1, .null]) ≠ .tooDeep := by
    decide
  have hdecode : s.decode "```json\n\x7b\"XS\": [1, null]\x7d\n```".toList
      = .ok (.value v .fenced) := by
    cbv
  obtain ⟨larger, enough, decoded⟩ := decode_of_larger_depth
  refine ⟨⟨hfits, ?_⟩, enough numbers (.str "") numbers.height (Int.le_refl _), hdecode,
    decoded s _ 64 v .fenced (by decide) hdecode⟩
  exact (larger numbers _ 2 64 (by decide) hne).trans hfits

end Schema

end TypedPrompt
