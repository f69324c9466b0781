/-
# `Proofs.Reading.AgreeingTypes` — a type is read alike from what looks alike

Types have no places, so two runs that agree give the same type.  There is one lemma
for each production, in the order in which they are written; each is under the
condition that the readers for a nested type agree.
-/
import TypedPrompt.Proofs.Reading.Agreement
import TypedPrompt.Reading.Type

namespace TypedPrompt.Reading

open Reader

variable {v : View}

theorem numeral_congr {t t' : Token} (h : SameToken v t t') : numeral t = numeral t' := by
  rw [numeral, numeral, h.text]

section Productions

variable {inner inner' : Reader Ty} (hinner : Agrees v Eq inner inner')

include hinner

/-! ## Names and their types -/

theorem namedType_agrees : Agrees v Eq (namedType inner) (namedType inner') := by
  refine .bind (.expect _ _) fun n n' hn => .bind (.accept _) ?_
  rintro early _ rfl
  rw [hn.text]
  refine .bind (.expect _ _) fun _ _ _ => .bind hinner ?_
  rintro t _ rfl
  refine .bind (.accept _) ?_
  rintro late _ rfl
  exact .pure rfl

theorem paramType_agrees : Agrees v Eq (paramType inner) (paramType inner') := by
  refine .bind (namedType_agrees hinner) ?_
  rintro p _ rfl
  exact .pure rfl

theorem fieldType_agrees (before : List (Field Ty)) :
    Agrees v Eq (fieldType inner before) (fieldType inner' before) := by
  refine .bind (namedType_agrees hinner) ?_
  rintro ⟨name, type, isOptional⟩ _ rfl
  refine .ite Iff.rfl (fun _ => ?_) fun _ => .pure rfl
  exact .bind .peek fun t t' ht => .failAt ht rfl

/-! ## Types with arguments -/

theorem functionType_agrees : Agrees v Eq (functionType inner) (functionType inner') := by
  refine .bind (.expect _ _) fun _ _ _ => ?_
  refine .listed_eq (fun _ => paramType_agrees hinner) fun params => ?_
  refine .bind (.expect _ _) fun _ _ _ => .bind (.expect _ _) fun _ _ _ => .bind hinner ?_
  rintro returns _ rfl
  exact .pure rfl

omit hinner in
theorem lengthBound_agrees : Agrees v Eq lengthBound lengthBound := by
  refine .bind (.expect _ _) fun t t' ht => ?_
  rw [numeral_congr ht]
  exact .ite Iff.rfl (fun _ => .failAt ht rfl) fun _ => .lift (.refl (fun _ => rfl) _)

omit hinner in
theorem nextBound_agrees : Agrees v Eq nextBound nextBound := by
  refine .bind (.accept _) ?_
  rintro more _ rfl
  refine .ite Iff.rfl (fun _ => .bind lengthBound_agrees ?_) fun _ => .pure rfl
  rintro n _ rfl
  exact .pure rfl

omit hinner in
theorem lengthBounds_agrees : Agrees v Eq lengthBounds lengthBounds := by
  refine .bind nextBound_agrees ?_
  rintro least _ rfl
  refine .ite Iff.rfl (fun _ => .bind nextBound_agrees ?_) fun _ => .pure rfl
  rintro most _ rfl
  exact .pure rfl

theorem listType_agrees : Agrees v Eq (listType inner) (listType inner') := by
  refine .bind (.accept _) ?_
  rintro more _ rfl
  refine .ite Iff.rfl (fun _ => .bind hinner ?_) fun _ => .pure rfl
  rintro element _ rfl
  refine .bind lengthBounds_agrees ?_
  rintro ⟨least, most⟩ _ rfl
  exact .bind (.expect _ _) fun _ _ _ => .pure rfl

theorem recordType_agrees : Agrees v Eq (recordType inner) (recordType inner') := by
  refine .bind (.accept _) ?_
  rintro more _ rfl
  refine .ite Iff.rfl (fun _ => ?_) fun _ => .pure rfl
  refine .listed_eq (fieldType_agrees hinner) fun fields => ?_
  exact .bind (.expect _ _) fun _ _ _ => .pure rfl

theorem dynamicType_agrees : Agrees v Eq (dynamicType inner) (dynamicType inner') := by
  refine .bind (.accept _) ?_
  rintro more _ rfl
  refine .ite Iff.rfl (fun _ => .bind hinner ?_) fun _ => .pure rfl
  rintro constraint _ rfl
  exact .bind (.expect _ _) fun _ _ _ => .pure rfl

omit hinner in
theorem temperature_agrees (what : Expectation) :
    Agrees v Eq (temperature what) (temperature what) := by
  refine .bind (.expect _ _) fun t t' ht => .pure ?_
  rw [numeral_congr ht]

omit hinner in
theorem promptSettings_agrees : Agrees v Eq promptSettings promptSettings := by
  refine .bind (.accept _) ?_
  rintro more _ rfl
  refine .ite Iff.rfl (fun _ => .bind (.at? _) ?_) fun _ => .pure rfl
  rintro named _ rfl
  refine .ite Iff.rfl (fun _ => .bind .step fun t t' ht => .bind (.accept _) ?_) fun _ => ?_
  · rintro both _ rfl
    rw [ht.text]
    refine .ite Iff.rfl (fun _ => .bind (temperature_agrees _) ?_) fun _ => .pure rfl
    rintro x _ rfl
    exact .pure rfl
  · refine .bind (temperature_agrees _) ?_
    rintro x _ rfl
    exact .pure rfl

theorem promptType_agrees : Agrees v Eq (promptType inner) (promptType inner') := by
  refine .bind (.accept _) ?_
  rintro more _ rfl
  refine .ite Iff.rfl (fun _ => .bind hinner ?_) fun _ => .pure rfl
  rintro input _ rfl
  refine .bind (.expect _ _) fun _ _ _ => .bind hinner ?_
  rintro output _ rfl
  refine .bind promptSettings_agrees ?_
  rintro ⟨model, x⟩ _ rfl
  exact .bind (.expect _ _) fun _ _ _ => .pure rfl

/-! ## Atoms, intersections, unions -/

omit hinner in
theorem opensFunctionType_agrees : Agrees v Eq opensFunctionType opensFunctionType := by
  refine .bind .step fun _ _ _ => .bind .peek fun t t' ht => ?_
  refine .ite (by rw [ht.kind]) (fun _ => .pure rfl) fun _ => ?_
  refine .ite (by rw [ht.kind]) (fun _ => ?_) fun _ => .pure rfl
  refine .bind .step fun _ _ _ => .bind .peek fun u u' hu => .pure ?_
  rw [hu.kind]

theorem typeOfName_agrees (name : String) :
    Agrees v Eq (typeOfName inner name) (typeOfName inner' name) := by
  unfold typeOfName
  cases Primitive.ofName? name with
  | some p => exact .pure rfl
  | none =>
      refine .ite Iff.rfl (fun _ => .pure rfl) fun _ => ?_
      refine .ite Iff.rfl (fun _ => listType_agrees hinner) fun _ => ?_
      refine .ite Iff.rfl (fun _ => recordType_agrees hinner) fun _ => ?_
      refine .ite Iff.rfl (fun _ => dynamicType_agrees hinner) fun _ => ?_
      exact .ite Iff.rfl (fun _ => promptType_agrees hinner) fun _ => .pure rfl

theorem groupedType_agrees : Agrees v Eq (groupedType inner) (groupedType inner') := by
  refine .bind .step fun _ _ _ => .bind hinner ?_
  rintro t _ rfl
  exact .bind (.expect _ _) fun _ _ _ => .pure rfl

theorem atomType_agrees : Agrees v Eq (atomType inner) (atomType inner') := by
  refine .bind (.at? _) ?_
  rintro opens _ rfl
  refine .ite Iff.rfl (fun _ => .bind (.ahead opensFunctionType_agrees) ?_) fun _ => ?_
  · rintro isFunction _ rfl
    exact .ite Iff.rfl (fun _ => functionType_agrees hinner) fun _ => groupedType_agrees hinner
  · refine .bind (.expect _ _) fun t t' ht => ?_
    rw [ht.text]
    exact typeOfName_agrees hinner t'.text

theorem interType_agrees : Agrees v Eq (interType inner) (interType inner') := by
  refine .bind (.separated_eq fun _ => atomType_agrees hinner) ?_
  rintro members _ rfl
  exact .pure rfl

theorem unionType_agrees : Agrees v Eq (unionType inner) (unionType inner') := by
  refine .bind (.separated_eq fun _ => interType_agrees hinner) ?_
  rintro members _ rfl
  exact .pure rfl

end Productions

/-- A type within some levels is read within more levels. -/
theorem typeWithin_agrees {limit limit' : Int} {levels levels' : Nat} (h : levels ≤ levels') :
    Agrees v Eq (typeWithin limit levels) (typeWithin limit' levels') := by
  induction levels generalizing levels' with
  | zero => exact fun i i' _ => .limit rfl
  | succ levels ih =>
      obtain ⟨levels', rfl⟩ := Nat.exists_eq_add_of_lt h
      exact unionType_agrees (ih (Nat.le_add_right levels levels'))

end TypedPrompt.Reading
