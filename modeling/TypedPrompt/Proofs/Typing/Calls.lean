/-
# `Proofs.Typing.Calls` — what a call needs, and functions that may stand for others

A call passes if its parts do and the types of the arguments fit the callee
(`check_application_passes_iff`).  `CallRule` says what fitting is: anything goes with a
dynamic callee, and a function gets at least as many arguments as it requires, no more
than it has parameters, and each of them below the type of its parameter.

So a function may stand for any function that it is below (`application_of_isSubtype`):
whatever call the one above passes with, the one below passes with, and the type of the
call goes down.  The subtype test on functions and the rule for calls are written
independently; what ties them is that both count the required parameters and go through
the parameters in order.  An argument that is below a parameter of the function above is
below the matching parameter of the one below by transitivity, hence the types are
strict.
-/
import TypedPrompt.Proofs.Ty.Transitivity
import TypedPrompt.Proofs.Typing.Passing

namespace TypedPrompt

namespace Ty

/-! ## Types that fit parameters and callees -/

/-- Each type has a parameter in its place, and is below the type of that parameter. -/
def Fits (ps : List (Param Ty)) (ts : List Ty) : Prop :=
  ∀ (i : Nat) (t : Ty), ts[i]? = some t → ∃ p, ps[i]? = some p ∧ t.isSubtype p.type = true

variable {ps qs : List (Param Ty)} {p : Param Ty} {r s t u : Ty} {ts : List Ty}

theorem fits_nil : Fits ps [] := fun _ _ h => nomatch h

theorem fits_cons_iff :
    Fits (p :: ps) (t :: ts) ↔ t.isSubtype p.type = true ∧ Fits ps ts := by
  constructor
  · intro h
    obtain ⟨q, hq, hle⟩ := h 0 t rfl
    cases hq
    exact ⟨hle, fun i u hu => h (i + 1) u hu⟩
  · rintro ⟨hle, h⟩ i u hu
    cases i with
    | zero =>
        cases hu
        exact ⟨p, rfl, hle⟩
    | succ i => exact h i u hu

theorem not_fits_nil_cons : ¬Fits [] (t :: ts) := by
  intro h
  obtain ⟨p, hp, -⟩ := h 0 t rfl
  cases hp

theorem Fits.length_le (h : Fits ps ts) : ts.length ≤ ps.length := by
  by_contra hlt
  obtain ⟨t, ht⟩ : ∃ t, ts[ps.length]? = some t :=
    ⟨_, List.getElem?_eq_getElem (Nat.not_le.mp hlt)⟩
  obtain ⟨p, hp, -⟩ := h _ t ht
  exact absurd hp (by simp)

/-- The type of a call of something of a type with arguments of some types. -/
inductive CallRule : Ty → List Ty → Ty → Prop
  | dynamic {callee : Ty} {ts : List Ty} (h : callee.isDynamic = true) :
      CallRule callee ts .dynamic
  | function {ps : List (Param Ty)} {r : Ty} {ts : List Ty}
      (hn : requiredCount ps ≤ ts.length) (hf : Fits ps ts) : CallRule (function ps r) ts r

/-! ## Subtypes of functions -/

/-- The subtype test is transitive on strict types. -/
theorem Strict.le_trans (hs : Strict s) (ht : Strict t) (hu : Strict u)
    (hst : s.isSubtype t = true) (htu : t.isSubtype u = true) : s.isSubtype u = true :=
  transBelow _ s t u (Nat.lt_succ_self _) hs ht hu hst htu

theorem Strict.param (h : Strict (function ps r)) {i : Nat} (hp : ps[i]? = some p) :
    Strict p.type :=
  h.part (List.mem_append_left _ (List.mem_map_of_mem (List.mem_of_getElem? hp)))

/-- What fits some parameters fits parameters that take more. -/
theorem Takes.fits (hp : Strict (function ps r)) (hq : Strict (function qs u))
    (hts : ∀ t ∈ ts, Strict t) (h : Takes ps qs) (hf : Fits qs ts) : Fits ps ts := by
  intro i t ht
  obtain ⟨q, hqi, htq⟩ := hf i t ht
  obtain ⟨p, hpi, hqp⟩ := h i q hqi
  exact ⟨p, hpi,
    (hts t (List.mem_of_getElem? ht)).le_trans (hq.param hqi) (hp.param hpi) htq hqp⟩

/-- A function takes every call that a function above it takes, and returns no more. -/
theorem callRule_of_isSubtype (hp : Strict (function ps r)) (hq : Strict (function qs u))
    (hts : ∀ t ∈ ts, Strict t) (h : (function ps r).isSubtype (function qs u) = true)
    (hc : CallRule (function qs u) ts t) :
    CallRule (function ps r) ts r ∧ r.isSubtype t = true := by
  cases hc with
  | dynamic hd => cases hd
  | function hn hf =>
      cases isSubtype_iff_rule.mp h with
      | trusted hd => cases hd
      | function hcount htakes hr =>
          exact ⟨.function (Nat.le_trans hcount hn) (htakes.fits hp hq hts hf), hr⟩

end Ty

namespace Typing

open Judgement Ty

variable {scope : Scope}

/-! ## The rule for calls -/

/-- Where there are no more arguments than parameters, none is reported exactly if all fit. -/
theorem checkArguments_passes_iff {ps : List (Param Ty)} {as : List (Expr × Ty)} {number : Nat}
    {x : Unit} (h : as.length ≤ ps.length) :
    (checkArguments number ps as).Passes x ↔ Fits ps (as.map Prod.snd) := by
  induction ps generalizing as number with
  | nil =>
      obtain rfl := List.length_eq_zero_iff.mp (Nat.le_zero.mp h)
      exact ⟨fun _ => fits_nil, fun _ => ⟨rfl, rfl⟩⟩
  | cons p ps ih =>
      cases as with
      | nil => exact ⟨fun _ => fits_nil, fun _ => ⟨rfl, rfl⟩⟩
      | cons a as =>
          rw [checkArguments, passes_require_bind_iff, ih (Nat.le_of_succ_le_succ h),
            List.map_cons, fits_cons_iff]

theorem applicationType_passes_iff {loc : Location} {function : Expr} {es : List Expr}
    {callee t : Ty} {ts : List Ty} (hlen : es.length = ts.length) :
    (applicationType loc function es callee ts).Passes t ↔ CallRule callee ts t := by
  cases callee with
  | dynamic | dynamicOf c =>
      rw [applicationType, passes_pure_iff]
      constructor
      · rintro rfl
        exact .dynamic rfl
      · rintro ⟨⟩
        rfl
  | function ps r =>
      have hzip : (es.zip ts).map Prod.snd = ts := List.map_snd_zip (Nat.le_of_eq hlen.symm)
      have hcount : (es.zip ts).length = ts.length := by simp [hlen]
      simp only [applicationType, passes_require_bind_iff, decide_eq_true_eq]
      constructor
      · rintro ⟨hleast, hmost, h⟩
        obtain ⟨x, hargs, ht⟩ := passes_bind_iff.mp h
        rw [checkArguments_passes_iff (hcount ▸ hmost), hzip] at hargs
        exact passes_pure_iff.mp ht ▸ .function hleast hargs
      · rintro (⟨⟨⟩⟩ | ⟨hleast, hfits⟩)
        refine ⟨hleast, hfits.length_le, passes_bind_iff.mpr ⟨(), ?_, passes_pure_iff.mpr rfl⟩⟩
        rwa [checkArguments_passes_iff (hcount ▸ hfits.length_le), hzip]
  | _ =>
      rw [applicationType]
      · refine iff_of_false not_passes_report ?_
        rintro ⟨⟨⟩⟩
      all_goals nofun

/-- A call passes exactly if its parts do and their types fit together. -/
theorem check_application_passes_iff {loc : Location} {function : Expr} {es : List Expr} {t : Ty} :
    (check scope (.application loc function es)).Passes t ↔
      ∃ callee ts, (check scope function).Passes callee ∧ PassesAll scope es ts ∧
        CallRule callee ts t := by
  simp only [check, passes_bind_iff, checkAll_passes_iff]
  constructor
  · rintro ⟨callee, hf, ts, hes, h⟩
    exact ⟨callee, ts, hf, hes, (applicationType_passes_iff hes.length_eq).mp h⟩
  · rintro ⟨callee, ts, hf, hes, h⟩
    exact ⟨callee, hf, ts, hes, (applicationType_passes_iff hes.length_eq).mpr h⟩

theorem check_application_answers_iff {loc : Location} {function : Expr} {es : List Expr} :
    (check scope (.application loc function es)).Answers ↔
      (check scope function).Answers ∧ ∀ e ∈ es, (check scope e).Answers := by
  rw [check]
  refine answers_bind_iff fun callee => ?_
  rw [← checkAll_answers_iff]
  exact answers_bind_left_iff fun ts => applicationType_answers loc function es callee ts

theorem check_identifier_passes_iff {loc : Location} {name : String} {t : Ty} :
    (check scope (.identifier loc name)).Passes t ↔ scope.lookup? name = some t := by
  rw [check, identifierType]
  cases scope.lookup? name with
  | some u => simp
  | none => simpa using not_passes_report

/-! ## Functions for functions -/

/-- Where `f` is below `g`, and arguments that pass have strict types, a call of `g` that
reports nothing passes with `f` in the place of `g`, and its type goes down. -/
theorem application_of_isSubtype {f g : String} {ps qs : List (Param Ty)} {r u : Ty}
    (hf : scope.lookup? f = some (.function ps r)) (hg : scope.lookup? g = some (.function qs u))
    (sf : Strict (.function ps r)) (sg : Strict (.function qs u))
    (h : (Ty.function ps r).isSubtype (.function qs u) = true)
    {es : List Expr} (hes : ∀ e ∈ es, ∃ t, (check scope e).Passes t ∧ Strict t)
    (loc loc' place place' : Location)
    (hcall : (check scope (.application loc (.identifier place g) es)).log = []) :
    ∃ t t', (check scope (.application loc (.identifier place g) es)).Passes t ∧
      (check scope (.application loc' (.identifier place' f) es)).Passes t' ∧
      t'.isSubtype t = true := by
  have hanswers : (check scope (.application loc (.identifier place g) es)).Answers := by
    rw [check_application_answers_iff]
    refine ⟨(check_identifier_passes_iff.mpr hg).answers, fun e he => ?_⟩
    obtain ⟨t, ht, -⟩ := hes e he
    exact ht.answers
  obtain ⟨t, ht⟩ := hanswers.passes hcall
  obtain ⟨callee, ts, hcallee, hts, hrule⟩ := check_application_passes_iff.mp ht
  obtain rfl : .function qs u = callee :=
    Option.some.inj (hg.symm.trans (check_identifier_passes_iff.mp hcallee))
  have strict : ∀ t ∈ ts, Strict t := by
    intro t hmem
    obtain ⟨e, he, hpass⟩ := forall₂_mem_right hts hmem
    obtain ⟨t', hpass', hstrict⟩ := hes e he
    exact Except.ok.inj (hpass'.2.symm.trans hpass.2) ▸ hstrict
  obtain ⟨hrule', hle⟩ := callRule_of_isSubtype sf sg strict h hrule
  refine ⟨t, r, ht, check_application_passes_iff.mpr ?_, hle⟩
  exact ⟨_, ts, check_identifier_passes_iff.mpr hf, hts, hrule'⟩

/-- `f` takes more and returns less than `g`; it may leave out the argument that `g` asks
for and goes on to a third one. -/
theorem application_of_isSubtype_optional :
    let lower : Ty := .function [⟨"a", .union [.string, .number], false⟩, ⟨"b", .any, true⟩,
      ⟨"c", .string, true⟩] .number
    let upper : Ty := .function [⟨"x", .string, false⟩, ⟨"y", .boolean, false⟩]
      (.union [.number, .null])
    let scope : Scope := [[("f", lower)], [("g", upper), ("flag", .boolean)]]
    let call (name : String) : Expr := .application .unknown (.identifier .unknown name)
      [.literal .unknown (.str "s"), .identifier .unknown "flag"]
    (check scope (call "g")).log = [] ∧
      ∃ t t', (check scope (call "g")).Passes t ∧ (check scope (call "f")).Passes t' ∧
        t'.isSubtype t = true := by
  intro lower upper scope call
  have hlower : Strict lower := ⟨⟨rfl, rfl⟩, by cbv⟩
  have hupper : Strict upper := ⟨⟨rfl, rfl⟩, by cbv⟩
  have hle : lower.isSubtype upper = true := by
    simp [lower, upper, isSubtype, belowSome_eq, acceptsParams, requiredCount]
  have hlog : (check scope (call "g")).log = [] := by cbv
  have hes : ∀ e ∈ [Expr.literal .unknown (.str "s"), .identifier .unknown "flag"],
      ∃ t, (check scope e).Passes t ∧ Strict t := by
    rw [List.forall_mem_cons, List.forall_mem_singleton]
    refine ⟨⟨.string, ?_, ⟨rfl, rfl⟩, rfl⟩, ⟨.boolean, ?_, ⟨rfl, rfl⟩, rfl⟩⟩
    · exact ⟨by cbv, by cbv⟩
    · exact check_identifier_passes_iff.mpr rfl
  exact ⟨hlog, application_of_isSubtype rfl rfl hlower hupper hle hes _ _ _ _ hlog⟩

end Typing

end TypedPrompt
