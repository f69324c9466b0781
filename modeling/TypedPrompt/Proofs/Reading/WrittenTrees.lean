/-
# `Proofs.Reading.WrittenTrees` — a tree that is read equals itself

Equality of trees is not reflexive: a constant or a temperature that is no number
differs from itself.  Neither can be written, so a tree that is read equals itself
(`Expr.same_self_of_expression`).
-/
import TypedPrompt.Expr.Equality
import TypedPrompt.Proofs.Reading.Forms
import TypedPrompt.Proofs.Reading.WrittenTypes

namespace TypedPrompt

namespace Expr

/-! ## Lists of trees that equal themselves -/

theorem sameAll_self {es : List Expr} (h : ∀ e ∈ es, same e e = true) : sameAll es es = true := by
  induction es with
  | nil => simp [sameAll]
  | cons e es ih =>
      obtain ⟨he, hes⟩ := List.forall_mem_cons.mp h
      simp [sameAll, he, ih hes]

theorem sameParams_self {ps : List (Parameter Expr)}
    (ht : ∀ p ∈ ps, sameType p.type p.type = true)
    (hd : ∀ e ∈ ps.filterMap Parameter.default, same e e = true) : sameParams ps ps = true := by
  induction ps with
  | nil => simp [sameParams]
  | cons p ps ih =>
      obtain ⟨htype, htypes⟩ := List.forall_mem_cons.mp ht
      obtain ⟨name, type, default⟩ := p
      cases default with
      | none => simpa [sameParams, ih htypes hd] using htype
      | some e =>
          obtain ⟨he, hdefaults⟩ := List.forall_mem_cons.mp hd
          simpa [sameParams, ih htypes hdefaults, he] using htype

theorem sameBindings_self {bs : List (Binding Expr)}
    (ht : ∀ b ∈ bs, sameType b.type b.type = true)
    (hv : ∀ e ∈ bs.map Binding.value, same e e = true) : sameBindings bs bs = true := by
  induction bs with
  | nil => simp [sameBindings]
  | cons b bs ih =>
      obtain ⟨htype, htypes⟩ := List.forall_mem_cons.mp ht
      obtain ⟨hvalue, hvalues⟩ := List.forall_mem_cons.mp hv
      obtain ⟨name, type, e⟩ := b
      have he : same e e = true := hvalue
      simpa [sameBindings, ih htypes hvalues, he] using htype

theorem sameParts_self {ps : List (Part Expr)}
    (h : ∀ e ∈ ps.filterMap embedded?, same e e = true) : sameParts ps ps = true := by
  induction ps with
  | nil => simp [sameParts]
  | cons p ps ih =>
      cases p with
      | text s => simp [sameParts, ih h]
      | embed e =>
          obtain ⟨he, h⟩ := List.forall_mem_cons.mp h
          simp [sameParts, he, ih h]

end Expr

namespace Grammar

open TypedPrompt.Expr

variable {file : String} {ts : List Token} {e : Expr}

/-! ## Trees that have a derivation -/

/-- A number that is written equals itself. -/
theorem Denotes.same_self {t : Token} {v : Value} (h : Denotes t v) : v.same v = true := by
  cases h with
  | integer _ => simp [Value.same, Value.samePlain, Value.toNumber?, Number.same]
  | real _ _ =>
      simp [Value.same, Value.samePlain, Value.toNumber?, Number.same,
        Binary64.sameNumber_self (Numeral.toBinary64_ne_nan _)]

theorem sameType_of_preceded {type : Option Ty} (h : Preceded .colon Annotation ts type) :
    sameType type type = true := by
  cases h with
  | none => rfl
  | some _ h => exact Ty.same_self_of_annotation h

theorem parameter_sameType {p : Parameter Expr} (h : ∃ us, us ⊆ ts ∧ LambdaParameter file us p) :
    sameType p.type p.type = true := by
  obtain ⟨us, -, ⟨_, ht, _⟩⟩ := h
  exact sameType_of_preceded ht

theorem binding_sameType {b : Binding Expr} (h : ∃ us, us ⊆ ts ∧ LetBinding file us b) :
    sameType b.type b.type = true := by
  obtain ⟨us, -, ⟨_, ht, _, _⟩⟩ := h
  exact sameType_of_preceded ht

/-- A tree that has a derivation equals itself. -/
theorem Expression.same_self (h : Expression file ts e) : same e e = true := by
  induction hn : sizeOf e using Nat.strongRecOn generalizing ts e with
  | ind n ih =>
      subst hn
      have hoperands : ∀ f ∈ e.operands, same f f = true := by
        intro f hf
        obtain ⟨us, hf'⟩ := h.operand hf
        exact ih (sizeOf f) (sizeOf_lt_of_mem_operands hf) hf' rfl
      obtain ⟨us, _, hh⟩ := h.headed
      cases hh with
      | single hs =>
          cases hs with
          | text => simp [same, Value.same]
          | template => simpa [same] using sameParts_self hoperands
          | number hv => simpa [same] using hv.same_self
          | boolean => simp [same, Value.same, Value.samePlain, Value.toNumber?, Number.same]
          | identifier => simp [same]
      | lambda hp _ hr _ =>
          obtain ⟨hdefaults, hbody⟩ := List.forall_mem_append.mp hoperands
          have htypes := sameType_of_preceded hr
          have hparams := sameParams_self (fun p hp' => parameter_sameType (hp.mem hp')) hdefaults
          simpa [same, hparams, htypes] using hbody
      | letIn hb _ _ =>
          obtain ⟨hvalues, hbody⟩ := List.forall_mem_append.mp hoperands
          have hbindings := sameBindings_self (fun b hb' => binding_sameType (hb.mem hb')) hvalues
          simpa [same, hbindings] using hbody
      | application _ _ _ =>
          obtain ⟨hfunction, harguments⟩ := List.forall_mem_cons.mp hoperands
          simp [same, hfunction, sameAll_self harguments]
      | @pipeline _ stages _ hlength =>
          cases stages with
          | nil => simp at hlength
          | cons stage stages =>
              have hstages : sameAll (stage :: stages) (stage :: stages) = true :=
                sameAll_self hoperands
              simpa [pipelineOf, same] using hstages
      | assertion _ ht =>
          have hsubject := hoperands _ List.mem_cons_self
          simp [same, hsubject, Ty.same_self_of_annotation ht]

end Grammar

end TypedPrompt
