/-
# `Proofs.Schema.Membership` — the values of a type

`Ty.Contains t v` says that `v` is a value of type `t`, by recursion on the type
and with nothing about room.  `fit` is the test of it: whatever the room, an
answer that it gives is the right one (`fit_settles`), and with room for the
height of the type it does give one (`fit_ne_tooDeep`).
-/
import TypedPrompt.Proofs.Ty.Components
import TypedPrompt.Schema.Fit

namespace TypedPrompt

namespace Fit

/-- The outcome is the right one for `p`, or there is none. -/
def Settles (p : Prop) : Fit → Prop
  | fits => p
  | differs => ¬p
  | tooDeep => True

variable {a b : Fit} {p q : Prop}

theorem settles_ofBool (b : Bool) : (ofBool b).Settles (b = true) := by
  cases b <;> simp [ofBool, Settles]

theorem Settles.both (ha : a.Settles p) (hb : b.Settles q) : (a.both b).Settles (p ∧ q) := by
  cases a with
  | fits => cases b <;> simp_all [Fit.both, Settles]
  | differs => exact fun h => ha h.1
  | tooDeep => trivial

theorem Settles.either (ha : a.Settles p) (hb : b.Settles q) : (a.either b).Settles (p ∨ q) := by
  cases a with
  | fits => exact Or.inl ha
  | differs => cases b <;> simp_all [Fit.either, Settles]
  | tooDeep => trivial

theorem Settles.congr (ha : a.Settles p) (h : p ↔ q) : a.Settles q := by
  rwa [← propext h]

theorem both_ne_tooDeep (ha : a ≠ tooDeep) (hb : b ≠ tooDeep) : a.both b ≠ tooDeep := by
  cases a <;> simp_all [Fit.both]

theorem either_ne_tooDeep (ha : a ≠ tooDeep) (hb : b ≠ tooDeep) : a.either b ≠ tooDeep := by
  cases a <;> simp_all [Fit.either]

theorem ofBool_ne_tooDeep (b : Bool) : ofBool b ≠ tooDeep := by
  cases b <;> simp [ofBool]

theorem settles_all {α : Type} {f : α → Fit} {g : α → Prop} :
    ∀ {xs : List α}, (∀ x ∈ xs, (f x).Settles (g x)) →
      (all (xs.map f)).Settles (∀ x ∈ xs, g x)
  | [], _ => fun _ hx => absurd hx List.not_mem_nil
  | x :: xs, h => by
      have hx := h x List.mem_cons_self
      have hxs := settles_all fun y hy => h y (List.mem_cons_of_mem x hy)
      exact (hx.both hxs).congr List.forall_mem_cons.symm

theorem all_ne_tooDeep {fs : List Fit} (h : ∀ f ∈ fs, f ≠ tooDeep) : all fs ≠ tooDeep := by
  induction fs with
  | nil => simp [all]
  | cons f fs ih =>
      exact both_ne_tooDeep (h f List.mem_cons_self)
        (ih fun g hg => h g (List.mem_cons_of_mem f hg))

end Fit

namespace Ty

mutual

/-- The value is of the type. -/
def Contains : Ty → Value → Prop
  | primitive p, v => p.holds v = true
  | any, _ => True
  | dynamic, _ => True
  | dynamicOf c, v => Contains c v
  | list e least most, v =>
      ∃ items, v = .arr items ∧ withinBounds least most items.length = true ∧
        ∀ x ∈ items, Contains e x
  | record fs isOpen, v =>
      ∃ es, v = .obj es ∧ ContainsFields fs es ∧ (isOpen || declaresAll fs es) = true
  | union ts, v => ContainsSome ts v
  | inter ts, v => ContainsEach ts v
  | never, _ => False
  | function _ _, _ => False
  | prompt _ _ _ _, _ => False

/-- The value is of one of the types. -/
def ContainsSome : List Ty → Value → Prop
  | [], _ => False
  | t :: ts, v => Contains t v ∨ ContainsSome ts v

/-- The value is of all of the types. -/
def ContainsEach : List Ty → Value → Prop
  | [], _ => True
  | t :: ts, v => Contains t v ∧ ContainsEach ts v

/-- Each field has an entry of its type, or is optional and has none. -/
def ContainsFields : List (Field Ty) → Entries Value → Prop
  | [], _ => True
  | ⟨name, t, isOptional, _⟩ :: fs, es =>
      (match Entries.find? es name with
        | some v => Contains t v
        | none => isOptional = true) ∧ ContainsFields fs es

end

theorem contains_union {ts : List Ty} {v : Value} :
    Contains (union ts) v ↔ ∃ t ∈ ts, Contains t v := by
  rw [Contains]
  induction ts with
  | nil => simp [ContainsSome]
  | cons t ts ih => simp [ContainsSome, ih]

theorem contains_inter {ts : List Ty} {v : Value} :
    Contains (inter ts) v ↔ ∀ t ∈ ts, Contains t v := by
  rw [Contains]
  induction ts with
  | nil => simp [ContainsEach]
  | cons t ts ih => simp [ContainsEach, ih]

/-- What an object has to hold for one field. -/
def ContainsField (f : Field Ty) (es : Entries Value) : Prop :=
  match Entries.find? es f.name with
  | some v => Contains f.type v
  | none => f.isOptional = true

theorem containsFields_iff {fs : List (Field Ty)} {es : Entries Value} :
    ContainsFields fs es ↔ ∀ f ∈ fs, ContainsField f es := by
  induction fs with
  | nil => simp [ContainsFields]
  | cons f fs ih =>
      obtain ⟨name, t, isOptional, description⟩ := f
      rw [ContainsFields, ih, List.forall_mem_cons]
      exact Iff.rfl

/-! ## The test gives the right answers -/

mutual

theorem fit_settles (room : Int) :
    ∀ (t : Ty) (v : Value), (fit room t v).Settles (Contains t v) := by
  intro t v
  rw [fit.eq_def]
  split
  · trivial
  · cases t with
    | primitive p => exact Fit.settles_ofBool _
    | any => trivial
    | dynamic => trivial
    | dynamicOf c => exact fit_settles (room - 1) c v
    | list e least most =>
        cases v with
        | arr items =>
            have hb := Fit.settles_ofBool (withinBounds least most items.length)
            have hi := Fit.settles_all fun x (_ : x ∈ items) => fit_settles (room - 1) e x
            exact (hb.both hi).congr (by simp [Contains])
        | _ => simp [Fit.Settles, Contains]
    | union ts => exact fitSome_settles (room - 1) ts v
    | inter ts => exact fitEach_settles (room - 1) ts v
    | record fs isOpen =>
        cases v with
        | obj es =>
            have hf := fitFields_settles (room - 1) fs es
            have ho := Fit.settles_ofBool (isOpen || declaresAll fs es)
            exact (hf.both ho).congr (by simp [Contains])
        | _ => simp [Fit.Settles, Contains]
    | never => exact id
    | function => exact id
    | prompt => exact id

theorem fitSome_settles (room : Int) :
    ∀ (ts : List Ty) (v : Value), (fitSome room ts v).Settles (ContainsSome ts v)
  | [], _ => id
  | t :: ts, v => (fit_settles room t v).either (fitSome_settles room ts v)

theorem fitEach_settles (room : Int) :
    ∀ (ts : List Ty) (v : Value), (fitEach room ts v).Settles (ContainsEach ts v)
  | [], _ => trivial
  | t :: ts, v => (fit_settles room t v).both (fitEach_settles room ts v)

theorem fitFields_settles (room : Int) :
    ∀ (fs : List (Field Ty)) (es : Entries Value),
      (fitFields room fs es).Settles (ContainsFields fs es)
  | [], _ => trivial
  | ⟨name, t, isOptional, _⟩ :: fs, es => by
      refine Fit.Settles.both ?_ (fitFields_settles room fs es)
      cases Entries.find? es name with
      | some v => exact fit_settles room t v
      | none => exact Fit.settles_ofBool isOptional

end

/-! ## With enough room there is an answer -/

mutual

theorem fit_ne_tooDeep :
    ∀ (t : Ty) (room : Int) (v : Value), (height t : Int) ≤ room → fit room t v ≠ .tooDeep := by
  intro t room v h
  have hroom : ¬room < 0 := by omega
  rw [fit.eq_def, if_neg hroom]
  cases t with
  | primitive p => exact Fit.ofBool_ne_tooDeep _
  | any | dynamic | never | function | prompt => simp
  | dynamicOf c => exact fit_ne_tooDeep c (room - 1) v (by simp only [height] at h; omega)
  | list e least most =>
      cases v with
      | arr items =>
          refine Fit.both_ne_tooDeep (Fit.ofBool_ne_tooDeep _) (Fit.all_ne_tooDeep ?_)
          intro f hf
          obtain ⟨x, -, rfl⟩ := List.mem_map.mp hf
          exact fit_ne_tooDeep e (room - 1) x (by simp only [height] at h; omega)
      | _ => simp
  | union ts => exact fitSome_ne_tooDeep ts (room - 1) v (by simp only [height] at h; omega)
  | inter ts => exact fitEach_ne_tooDeep ts (room - 1) v (by simp only [height] at h; omega)
  | record fs isOpen =>
      cases v with
      | obj es =>
          refine Fit.both_ne_tooDeep ?_ (Fit.ofBool_ne_tooDeep _)
          exact fitFields_ne_tooDeep fs (room - 1) es (by simp only [height] at h; omega)
      | _ => simp

theorem fitSome_ne_tooDeep :
    ∀ (ts : List Ty) (room : Int) (v : Value), (heightAll ts : Int) ≤ room + 1 →
      fitSome room ts v ≠ .tooDeep
  | [], _, _, _ => by simp [fitSome]
  | t :: ts, room, v, h => by
      simp only [heightAll] at h
      exact Fit.either_ne_tooDeep (fit_ne_tooDeep t room v (by omega))
        (fitSome_ne_tooDeep ts room v (by omega))

theorem fitEach_ne_tooDeep :
    ∀ (ts : List Ty) (room : Int) (v : Value), (heightAll ts : Int) ≤ room + 1 →
      fitEach room ts v ≠ .tooDeep
  | [], _, _, _ => by simp [fitEach]
  | t :: ts, room, v, h => by
      simp only [heightAll] at h
      exact Fit.both_ne_tooDeep (fit_ne_tooDeep t room v (by omega))
        (fitEach_ne_tooDeep ts room v (by omega))

theorem fitFields_ne_tooDeep :
    ∀ (fs : List (Field Ty)) (room : Int) (es : Entries Value),
      (heightFields fs : Int) ≤ room + 1 → fitFields room fs es ≠ .tooDeep
  | [], _, _, _ => by simp [fitFields]
  | ⟨name, t, isOptional, _⟩ :: fs, room, es, h => by
      simp only [heightFields] at h
      refine Fit.both_ne_tooDeep ?_ (fitFields_ne_tooDeep fs room es (by omega))
      cases Entries.find? es name with
      | some v => exact fit_ne_tooDeep t room v (by omega)
      | none => exact Fit.ofBool_ne_tooDeep isOptional

end

theorem contains_of_fit {room : Int} {t : Ty} {v : Value} (h : fit room t v = .fits) :
    Contains t v := by
  have hs := fit_settles room t v
  rwa [h] at hs

/-- As far as the room suffices, the test decides whether the value is of the type. -/
theorem fit_eq_fits_iff_of_ne {room : Int} {t : Ty} {v : Value} (h : fit room t v ≠ .tooDeep) :
    fit room t v = .fits ↔ Contains t v := by
  have hs := fit_settles room t v
  cases hf : fit room t v with
  | fits => exact ⟨fun _ => by rwa [hf] at hs, fun _ => rfl⟩
  | differs => exact ⟨fun h => by simp at h, fun hc => absurd hc (by rwa [hf] at hs)⟩
  | tooDeep => exact absurd hf h

/-- With room for the height of the type, the test decides whether the value is of it. -/
theorem fit_eq_fits_iff {room : Int} {t : Ty} {v : Value} (h : (t.height : Int) ≤ room) :
    fit room t v = .fits ↔ Contains t v :=
  fit_eq_fits_iff_of_ne (fit_ne_tooDeep t room v h)

end Ty

end TypedPrompt
