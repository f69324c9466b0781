/-
# `Proofs.Ty.Components` — the components of a type

A type is made of other types, down to those without parts.  `parts` lists the
types that a type is made of directly, and `everywhere` asks a question of a type
and of all of its components.  The questions that the theory asks are about one
node at a time: whether it is dynamic, whether a record has optional fields,
whether the members of a union are in normal form.

Every part is smaller than the whole, which is what the inductions on types and
on pairs of types go down in.  `height` counts the steps to the deepest component.
-/
import TypedPrompt.Ty.Normal

namespace TypedPrompt.Ty

/-- The types that a type is made of directly. -/
def parts : Ty → List Ty
  | primitive _ | any | never | dynamic => []
  | dynamicOf c => [c]
  | list e _ _ => [e]
  | record fs _ => fs.map Field.type
  | function ps r => ps.map Param.type ++ [r]
  | union ts => ts
  | inter ts => ts
  | prompt i o _ _ => [i, o]

theorem sizeOf_field_type_lt {f : Field Ty} {fs : List (Field Ty)} (h : f ∈ fs) :
    sizeOf f.type < sizeOf fs := by
  have hf := List.sizeOf_lt_of_mem h
  obtain ⟨name, t, isOptional, description⟩ := f
  simp only [Field.mk.sizeOf_spec] at hf
  show sizeOf t < sizeOf fs
  omega

theorem sizeOf_param_type_lt {p : Param Ty} {ps : List (Param Ty)} (h : p ∈ ps) :
    sizeOf p.type < sizeOf ps := by
  have hp := List.sizeOf_lt_of_mem h
  obtain ⟨name, t, isOptional⟩ := p
  simp only [Param.mk.sizeOf_spec] at hp
  show sizeOf t < sizeOf ps
  omega

/-- A part is smaller than the whole. -/
theorem sizeOf_lt_of_mem_parts {t u : Ty} (h : u ∈ t.parts) : sizeOf u < sizeOf t := by
  cases t with
  | primitive | any | never | dynamic => simp [parts] at h
  | dynamicOf c =>
      obtain rfl := List.mem_singleton.mp h
      simp only [dynamicOf.sizeOf_spec]
      omega
  | list e _ _ =>
      obtain rfl := List.mem_singleton.mp h
      simp only [list.sizeOf_spec]
      omega
  | record fs _ =>
      obtain ⟨f, hf, rfl⟩ := List.mem_map.mp h
      have := sizeOf_field_type_lt hf
      simp only [record.sizeOf_spec]
      omega
  | function ps r =>
      simp only [function.sizeOf_spec]
      rcases List.mem_append.mp h with hp | hr
      · obtain ⟨p, hmem, rfl⟩ := List.mem_map.mp hp
        have := sizeOf_param_type_lt hmem
        omega
      · obtain rfl := List.mem_singleton.mp hr
        omega
  | union ts =>
      have := List.sizeOf_lt_of_mem (show u ∈ ts from h)
      simp only [union.sizeOf_spec]
      omega
  | inter ts =>
      have := List.sizeOf_lt_of_mem (show u ∈ ts from h)
      simp only [inter.sizeOf_spec]
      omega
  | prompt i o _ _ =>
      have : u = i ∨ u = o := by simpa [parts] using h
      simp only [prompt.sizeOf_spec]
      rcases this with rfl | rfl <;> omega

/-! ## A question asked everywhere -/

mutual

/-- The answer is yes for the type and for all of its components. -/
def everywhere (p : Ty → Bool) : Ty → Bool
  | primitive q => p (primitive q)
  | any => p any
  | never => p never
  | dynamic => p dynamic
  | dynamicOf c => p (dynamicOf c) && everywhere p c
  | list e least most => p (list e least most) && everywhere p e
  | record fs isOpen => p (record fs isOpen) && everywhereFields p fs
  | function ps r => p (function ps r) && (everywhereParams p ps && everywhere p r)
  | union ts => p (union ts) && everywhereAll p ts
  | inter ts => p (inter ts) && everywhereAll p ts
  | prompt i o model x => p (prompt i o model x) && (everywhere p i && everywhere p o)

/-- The answer is yes everywhere in some types. -/
def everywhereAll (p : Ty → Bool) : List Ty → Bool
  | [] => true
  | t :: ts => everywhere p t && everywhereAll p ts

/-- The answer is yes everywhere in the types of some fields. -/
def everywhereFields (p : Ty → Bool) : List (Field Ty) → Bool
  | [] => true
  | ⟨_, t, _, _⟩ :: fs => everywhere p t && everywhereFields p fs

/-- The answer is yes everywhere in the types of some parameters. -/
def everywhereParams (p : Ty → Bool) : List (Param Ty) → Bool
  | [] => true
  | ⟨_, t, _⟩ :: ps => everywhere p t && everywhereParams p ps

end

section Everywhere

variable {p q : Ty → Bool} {t u : Ty}

theorem everywhereAll_eq (p : Ty → Bool) (ts : List Ty) :
    everywhereAll p ts = ts.all (everywhere p) := by
  induction ts <;> simp_all [everywhereAll]

theorem everywhereFields_eq (p : Ty → Bool) (fs : List (Field Ty)) :
    everywhereFields p fs = (fs.map Field.type).all (everywhere p) := by
  induction fs <;> simp_all [everywhereFields]

theorem everywhereParams_eq (p : Ty → Bool) (ps : List (Param Ty)) :
    everywhereParams p ps = (ps.map Param.type).all (everywhere p) := by
  induction ps <;> simp_all [everywhereParams]

/-- A question is answered at a node and then in its parts. -/
theorem everywhere_eq (p : Ty → Bool) (t : Ty) :
    everywhere p t = (p t && t.parts.all (everywhere p)) := by
  cases t <;>
    simp [everywhere, parts, everywhereAll_eq, everywhereFields_eq, everywhereParams_eq]

theorem everywhere_here (h : everywhere p t = true) : p t = true := by
  rw [everywhere_eq, Bool.and_eq_true] at h
  exact h.1

theorem everywhere_part (h : everywhere p t = true) (hu : u ∈ t.parts) :
    everywhere p u = true := by
  rw [everywhere_eq, Bool.and_eq_true, List.all_eq_true] at h
  exact h.2 u hu

theorem everywhere_of_parts (h : p t = true) (hp : ∀ u ∈ t.parts, everywhere p u = true) :
    everywhere p t = true := by
  rw [everywhere_eq, Bool.and_eq_true, List.all_eq_true]
  exact ⟨h, hp⟩

theorem everywhere_mono (hpq : ∀ t, p t = true → q t = true) (h : everywhere p t = true) :
    everywhere q t = true := by
  induction hn : sizeOf t using Nat.strongRecOn generalizing t with
  | ind n ih =>
      subst hn
      refine everywhere_of_parts (hpq t (everywhere_here h)) fun u hu => ?_
      exact ih (sizeOf u) (sizeOf_lt_of_mem_parts hu) (everywhere_part h hu) rfl

end Everywhere

/-! ## How deep a type goes -/

mutual

/-- The number of steps from a type to its deepest component. -/
def height : Ty → Nat
  | primitive _ | any | never | dynamic => 0
  | dynamicOf c => height c + 1
  | list e _ _ => height e + 1
  | record fs _ => heightFields fs
  | function ps r => max (heightParams ps) (height r + 1)
  | union ts => heightAll ts
  | inter ts => heightAll ts
  | prompt i o _ _ => max (height i) (height o) + 1

/-- One more than the greatest height of some types, or nothing. -/
def heightAll : List Ty → Nat
  | [] => 0
  | t :: ts => max (height t + 1) (heightAll ts)

/-- One more than the greatest height of the types of some fields, or nothing. -/
def heightFields : List (Field Ty) → Nat
  | [] => 0
  | ⟨_, t, _, _⟩ :: fs => max (height t + 1) (heightFields fs)

/-- One more than the greatest height of the types of some parameters, or nothing. -/
def heightParams : List (Param Ty) → Nat
  | [] => 0
  | ⟨_, t, _⟩ :: ps => max (height t + 1) (heightParams ps)

end

theorem heightAll_le_iff {ts : List Ty} {k : Nat} :
    heightAll ts ≤ k ↔ ∀ t ∈ ts, t.height < k := by
  induction ts with
  | nil => simp [heightAll]
  | cons t ts ih => rw [heightAll, Nat.max_le, ih, List.forall_mem_cons, Nat.succ_le_iff]

theorem heightFields_eq (fs : List (Field Ty)) :
    heightFields fs = heightAll (fs.map Field.type) := by
  induction fs <;> simp_all [heightFields, heightAll]

theorem heightParams_eq (ps : List (Param Ty)) :
    heightParams ps = heightAll (ps.map Param.type) := by
  induction ps <;> simp_all [heightParams, heightAll]

/-- A type goes deeper than its parts, by one step and no more. -/
theorem height_le_iff {t : Ty} {k : Nat} : t.height ≤ k ↔ ∀ u ∈ t.parts, u.height < k := by
  cases t with
  | primitive | any | never | dynamic => simp [height, parts]
  | dynamicOf | list => rw [height, Nat.succ_le_iff, parts, List.forall_mem_singleton]
  | record | union | inter => simp [height, parts, heightFields_eq, heightAll_le_iff]
  | function ps r =>
      simp only [height, parts, heightParams_eq, Nat.max_le, heightAll_le_iff, Nat.succ_le_iff,
        List.forall_mem_append, List.forall_mem_singleton]
  | prompt i o _ _ =>
      rw [height, Nat.succ_le_iff, Nat.max_lt, parts, List.forall_mem_cons,
        List.forall_mem_singleton]

theorem height_le_succ_iff {t : Ty} {k : Nat} :
    t.height ≤ k + 1 ↔ ∀ u ∈ t.parts, u.height ≤ k := by
  simp only [height_le_iff, Nat.lt_succ_iff]

/-- Every part is less deep than the whole. -/
theorem height_lt_of_mem_parts {t u : Ty} (h : u ∈ t.parts) : u.height < t.height :=
  height_le_iff.mp (Nat.le_refl t.height) u h

end TypedPrompt.Ty
