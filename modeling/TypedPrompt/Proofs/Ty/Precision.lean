/-
# `Proofs.Ty.Precision` — types that say less

`Blurs t u`: the type `u` is `t` with `dynamic` in the place of some of its
components, perhaps of all of `t`, perhaps of none.  Names, bounds, descriptions
and the marks for optional fields and parameters stay as they are.

The subtype test is monotone in both sides (`isSubtype_of_blurs`): a type that
says less is below, and above, whatever the type was below, and above, before.
It has the shape that it had, unless `dynamic` has taken its place as a whole.
-/
import TypedPrompt.Proofs.Ty.Shapes

namespace TypedPrompt

namespace Ty

/-- The second type is the first with `dynamic` in the place of some components. -/
inductive Blurs : Ty → Ty → Prop
  | whole (t : Ty) : Blurs t dynamic
  | primitive (p : Primitive) : Blurs (primitive p) (primitive p)
  | any : Blurs any any
  | never : Blurs never never
  | dynamicOf {c d : Ty} (h : Blurs c d) : Blurs (dynamicOf c) (dynamicOf d)
  | list {e f : Ty} (least most : Option Int) (h : Blurs e f) :
      Blurs (list e least most) (list f least most)
  | record {fs gs : List (Field Ty)} (isOpen : Bool) (h : List.Forall₂ (Field.Rel Blurs) fs gs) :
      Blurs (record fs isOpen) (record gs isOpen)
  | function {ps qs : List (Param Ty)} {r u : Ty} (hp : List.Forall₂ (Param.Rel Blurs) ps qs)
      (hr : Blurs r u) : Blurs (function ps r) (function qs u)
  | union {ts us : List Ty} (h : List.Forall₂ Blurs ts us) : Blurs (union ts) (union us)
  | inter {ts us : List Ty} (h : List.Forall₂ Blurs ts us) : Blurs (inter ts) (inter us)
  | prompt {i o j p : Ty} (model : Option String) (temperature : Option Binary64)
      (hi : Blurs i j) (ho : Blurs o p) :
      Blurs (prompt i o model temperature) (prompt j p model temperature)

/-! ## Nothing has to be blurred -/

mutual

theorem Blurs.refl : ∀ t : Ty, Blurs t t
  | primitive p => .primitive p
  | any => .any
  | never => .never
  | dynamic => .whole dynamic
  | dynamicOf c => .dynamicOf (Blurs.refl c)
  | list e least most => .list least most (Blurs.refl e)
  | record fs isOpen => .record isOpen (forall₂_field_refl fs)
  | function ps r => .function (forall₂_param_refl ps) (Blurs.refl r)
  | union ts => .union (forall₂_blurs_refl ts)
  | inter ts => .inter (forall₂_blurs_refl ts)
  | prompt i o model x => .prompt model x (Blurs.refl i) (Blurs.refl o)

theorem forall₂_blurs_refl : ∀ ts : List Ty, List.Forall₂ Blurs ts ts
  | [] => .nil
  | t :: ts => .cons (Blurs.refl t) (forall₂_blurs_refl ts)

theorem forall₂_field_refl : ∀ fs : List (Field Ty), List.Forall₂ (Field.Rel Blurs) fs fs
  | [] => .nil
  | ⟨name, t, isOptional, description⟩ :: fs =>
      .cons (.mk name isOptional description (Blurs.refl t)) (forall₂_field_refl fs)

theorem forall₂_param_refl : ∀ ps : List (Param Ty), List.Forall₂ (Param.Rel Blurs) ps ps
  | [] => .nil
  | ⟨name, t, isOptional⟩ :: ps =>
      .cons (.mk name isOptional (Blurs.refl t)) (forall₂_param_refl ps)

end

/-! ## The subtype test is monotone -/

/-- Where blurring does not take a type as a whole, it leaves its shape. -/
theorem Blurs.shape {t u : Ty} (h : Blurs t u) : u = dynamic ∨ Shape Blurs t u := by
  cases h with
  | whole => exact .inl rfl
  | primitive p => exact .inr (.primitive p)
  | any => exact .inr .any
  | never => exact .inr .never
  | dynamicOf h => exact .inr (.dynamicOf h)
  | list least most h => exact .inr (.list least most least most h)
  | record isOpen h => exact .inr (.record isOpen isOpen h)
  | function hp hr => exact .inr (.function hp hr)
  | union h => exact .inr (.union h)
  | inter h => exact .inr (.inter h)
  | prompt model x hi ho => exact .inr (.prompt model model x x hi ho)

/-- A type that says less is below, and above, what the type was. -/
theorem isSubtype_of_blurs :
    ∀ {s t s' t' : Ty}, Blurs s s' → Blurs t t' → s.isSubtype t = true →
      s'.isSubtype t' = true :=
  isSubtype_mono Blurs.shape

end Ty

end TypedPrompt
