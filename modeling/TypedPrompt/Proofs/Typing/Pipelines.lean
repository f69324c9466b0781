/-
# `Proofs.Typing.Pipelines` — a pipeline is a nest of calls

`nestedCalls first stages` applies each stage to everything before it.  With stages that
require at most one argument, a pipeline passes exactly if these calls pass, and with the
same type (`pipeline_as_calls`).

The two are checked in different orders and by different rules: a pipeline goes from the
first stage to the last and carries along what flows, a call looks at its function
first, and counts arguments where a pipeline asks for a parameter.  What they share is
`StageRule`, the type that flows out of a stage.  The rule for calls says the same of a
single argument (`callRule_single_iff`), a function without parameters being refused by
both.  Their diagnostics differ, and so does where each stops at a tree that has no
type; but neither comes to an end unless every part does.
-/
import TypedPrompt.Proofs.Typing.Calls

namespace TypedPrompt

/-- Each stage, at its place, applied to all that comes before it. -/
def Expr.nestedCalls (first : Expr) (stages : List (Location × Expr)) : Expr :=
  stages.foldl (fun e stage => .application stage.1 stage.2 [e]) first

namespace Ty

/-! ## The rule for stages -/

/-- The type that flows out of a stage when a type flows in. -/
inductive StageRule : Ty → Ty → Ty → Prop
  | dynamic {input stage : Ty} (h : stage.isDynamic = true) : StageRule input stage .dynamic
  | function {input r : Ty} {p : Param Ty} {ps : List (Param Ty)}
      (h : input.isSubtype p.type = true) : StageRule input (function (p :: ps) r) r

/-- A function that requires at most one argument takes as a stage what it takes as the
argument of a call. -/
theorem callRule_single_iff {input stage output : Ty}
    (h : ∀ ps r, stage = function ps r → requiredCount ps ≤ 1) :
    CallRule stage [input] output ↔ StageRule input stage output := by
  constructor
  · rintro (hd | ⟨hn, hf⟩)
    · exact .dynamic hd
    · next ps =>
        cases ps with
        | nil => exact absurd hf not_fits_nil_cons
        | cons p ps => exact .function (fits_cons_iff.mp hf).1
  · rintro (hd | hle)
    · exact .dynamic hd
    · exact .function (h _ _ rfl) (fits_cons_iff.mpr ⟨hle, fits_nil⟩)

end Ty

namespace Typing

open Judgement Ty TypedPrompt.Expr

variable {scope : Scope}

theorem stageType_passes_iff {number : Nat} {loc : Location} {input stage : Ty}
    {flow : Option Ty} : (stageType number loc (some input) stage).Passes flow ↔
      ∃ output, flow = some output ∧ StageRule input stage output := by
  cases stage with
  | dynamic | dynamicOf c =>
      simp only [stageType, passes_pure_iff]
      constructor
      · rintro rfl
        exact ⟨_, rfl, .dynamic rfl⟩
      · rintro ⟨_, rfl, ⟨⟩⟩
        rfl
  | function ps r =>
      cases ps with
      | nil =>
          simp only [stageType]
          refine iff_of_false not_passes_report ?_
          rintro ⟨_, _, ⟨⟨⟩⟩⟩
      | cons p ps =>
          simp only [stageType, passes_require_bind_iff, passes_pure_iff]
          constructor
          · rintro ⟨hle, rfl⟩
            exact ⟨r, rfl, .function hle⟩
          · rintro ⟨_, rfl, ⟨⟨⟩⟩ | hle⟩
            exact ⟨hle, rfl⟩
  | _ =>
      simp only [stageType]
      refine iff_of_false not_passes_report ?_
      rintro ⟨_, _, ⟨⟨⟩⟩⟩

/-! ## The stages one after the other -/

/-- Stages, as many as they are, that take what `first` gives: calls around `first`. -/
theorem checkStages_passes_iff {stages : List (Location × Expr)}
    (h : ∀ stage ∈ stages, ∀ ps r, (check scope stage.2).answer = .ok (.function ps r) →
      requiredCount ps ≤ 1) (number : Nat) {first : Expr} {flow : Option Ty} :
    (∃ input, (check scope first).Passes input ∧
        (checkStages scope number (some input) (stages.map Prod.snd)).Passes flow) ↔
      ∃ output, flow = some output ∧ (check scope (nestedCalls first stages)).Passes output := by
  induction stages generalizing first number with
  | nil =>
      simp only [List.map_nil, checkStages, passes_pure_iff]
      constructor
      · rintro ⟨t, ht, rfl⟩
        exact ⟨t, rfl, ht⟩
      · rintro ⟨t, rfl, ht⟩
        exact ⟨t, ht, rfl⟩
  | cons stage stages ih =>
      obtain ⟨hstage, hstages⟩ := List.forall_mem_cons.mp h
      -- the calls around the first stage, which is a call itself
      rw [nestedCalls, List.foldl_cons]
      refine Iff.trans ?_ (ih hstages (number + 1))
      simp only [List.map_cons, checkStages, passes_bind_iff, stageType_passes_iff,
        check_application_passes_iff]
      constructor
      · rintro ⟨input, hinput, t, ht, _, ⟨output, rfl, hrule⟩, hrest⟩
        refine ⟨output, ⟨t, [input], ht, .cons hinput .nil, ?_⟩, hrest⟩
        exact (callRule_single_iff fun ps r heq => hstage ps r (heq ▸ ht.2)).mpr hrule
      · rintro ⟨output, ⟨t, ts, ht, hts, hrule⟩, hrest⟩
        obtain ⟨input, _, hinput, hnil, rfl⟩ := List.forall₂_cons_left_iff.mp hts
        cases hnil
        refine ⟨input, hinput, t, ht, _, ⟨output, rfl, ?_⟩, hrest⟩
        exact (callRule_single_iff fun ps r heq => hstage ps r (heq ▸ ht.2)).mp hrule

theorem checkStages_answers_iff {es : List Expr} {number : Nat} {flow : Option Ty} :
    (checkStages scope number flow es).Answers ↔ ∀ e ∈ es, (check scope e).Answers := by
  induction es generalizing number flow with
  | nil =>
      rw [checkStages]
      exact ⟨fun _ => nofun, fun _ => ⟨_, rfl⟩⟩
  | cons e es ih =>
      rw [checkStages, List.forall_mem_cons]
      refine answers_bind_iff fun stage => ?_
      rw [answers_bind_iff fun _ => ih]
      exact and_iff_right (stageType_answers number e.loc flow stage)

/-! ## Pipelines -/

theorem check_pipeline_passes_iff {loc : Location} {first : Expr} {stages : List (Location × Expr)}
    (h : ∀ stage ∈ stages, ∀ ps r, (check scope stage.2).answer = .ok (.function ps r) →
      requiredCount ps ≤ 1) {t : Ty} :
    (check scope (.pipeline loc (first :: stages.map Prod.snd))).Passes t ↔
      (check scope (nestedCalls first stages)).Passes t := by
  simp only [check, passes_bind_iff, passes_pure_iff]
  constructor
  · rintro ⟨input, hinput, flow, hflow, rfl⟩
    obtain ⟨output, rfl, hcalls⟩ := (checkStages_passes_iff h 2).mp ⟨input, hinput, hflow⟩
    exact hcalls
  · intro hcalls
    obtain ⟨input, hinput, hflow⟩ := (checkStages_passes_iff h 2).mpr ⟨t, rfl, hcalls⟩
    exact ⟨input, hinput, some t, hflow, rfl⟩

theorem check_pipeline_answers_iff {loc : Location} {first : Expr} {stages : List Expr} :
    (check scope (.pipeline loc (first :: stages))).Answers ↔
      (check scope first).Answers ∧ ∀ e ∈ stages, (check scope e).Answers := by
  rw [check]
  refine answers_bind_iff fun input => ?_
  rw [answers_bind_left_iff fun _ => ⟨_, rfl⟩]
  exact checkStages_answers_iff

theorem check_nestedCalls_answers_iff {first : Expr} {stages : List (Location × Expr)} :
    (check scope (nestedCalls first stages)).Answers ↔
      (check scope first).Answers ∧ ∀ e ∈ stages.map Prod.snd, (check scope e).Answers := by
  induction stages generalizing first with
  | nil =>
      rw [nestedCalls, List.foldl_nil, List.map_nil]
      exact (and_iff_left fun _ he => absurd he List.not_mem_nil).symm
  | cons stage stages ih =>
      rw [nestedCalls, List.foldl_cons]
      refine ih.trans ?_
      rw [check_application_answers_iff, List.forall_mem_singleton, List.map_cons,
        List.forall_mem_cons]
      exact ⟨fun ⟨⟨hs, hf⟩, h⟩ => ⟨hf, hs, h⟩, fun ⟨hf, hs, h⟩ => ⟨⟨hs, hf⟩, h⟩⟩

/-- A pipeline whose stages require at most one argument passes exactly if the nested calls
pass, and then with the same type.  Either has a type if the other has, and both have one
if there is a rule for each of their parts. -/
theorem pipeline_as_calls (scope : Scope) (loc : Location) (first : Expr)
    (stages : List (Location × Expr))
    (h : ∀ stage ∈ stages, ∀ ps r, (check scope stage.2).answer = .ok (.function ps r) →
      requiredCount ps ≤ 1) :
    let piped := check scope (.pipeline loc (first :: stages.map Prod.snd))
    let called := check scope (nestedCalls first stages)
    (piped.Answers ↔ called.Answers) ∧
      ((∀ e ∈ first :: stages.map Prod.snd, e.Covered) → piped.Answers) ∧
      (piped.Answers → (piped.log = [] ↔ called.log = [])) ∧
      (piped.Answers → piped.log = [] → piped.answer = called.answer) := by
  intro piped called
  have hanswers : piped.Answers ↔ called.Answers :=
    check_pipeline_answers_iff.trans check_nestedCalls_answers_iff.symm
  have hpasses {t : Ty} : piped.Passes t ↔ called.Passes t := check_pipeline_passes_iff h
  refine ⟨hanswers, fun hcovered => ?_, fun hp => ⟨fun hlog => ?_, fun hlog => ?_⟩,
    fun hp hlog => ?_⟩
  · obtain ⟨hfirst, hstages⟩ := List.forall_mem_cons.mp hcovered
    exact check_pipeline_answers_iff.mpr
      ⟨check_answers first scope hfirst, fun e he => check_answers e scope (hstages e he)⟩
  · obtain ⟨t, ht⟩ := hp.passes hlog
    exact (hpasses.mp ht).1
  · obtain ⟨t, ht⟩ := (hanswers.mp hp).passes hlog
    exact (hpasses.mpr ht).1
  · obtain ⟨t, ht⟩ := hp.passes hlog
    exact ht.2.trans (hpasses.mp ht).2.symm

/-- `"s" |> measure |> (n: number) -> n |> show`, where `measure` has a second parameter that
may be left out and `show` is dynamic. -/
theorem pipeline_as_calls_optional :
    let scope : Scope := [[("measure", .function [⟨"text", .string, false⟩,
      ⟨"unit", .string, true⟩] .number), ("show", .dynamic)]]
    let first : Expr := .literal .unknown (.str "s")
    let stages : List (Location × Expr) := [(.unknown, .identifier .unknown "measure"),
      (.unknown, .lambda .unknown [⟨"n", some .number, none⟩] (.identifier .unknown "n") none),
      (.unknown, .identifier .unknown "show")]
    let piped := check scope (.pipeline .unknown (first :: stages.map Prod.snd))
    let called := check scope (nestedCalls first stages)
    (∀ stage ∈ stages, ∀ ps r, (check scope stage.2).answer = .ok (.function ps r) →
      requiredCount ps ≤ 1) ∧
    piped.Passes .dynamic ∧ called.log = [] ∧ piped.answer = called.answer := by
  intro scope first stages piped called
  have h : ∀ stage ∈ stages, ∀ ps r, (check scope stage.2).answer = .ok (.function ps r) →
      requiredCount ps ≤ 1 := by
    rw [List.forall_mem_cons, List.forall_mem_cons, List.forall_mem_singleton]
    refine ⟨fun ps r h => ?_, fun ps r h => ?_, fun ps r h => nomatch h⟩ <;>
      · cases h
        decide
  have hpiped : piped.Passes .dynamic := by
    show (check scope (.pipeline .unknown [first, .identifier .unknown "measure",
      .lambda .unknown [⟨"n", some .number, none⟩] (.identifier .unknown "n") none,
      .identifier .unknown "show"])).Passes .dynamic
    exact ⟨by cbv, by cbv⟩
  obtain ⟨-, -, hlog, htype⟩ := pipeline_as_calls scope .unknown first stages h
  exact ⟨h, hpiped, (hlog hpiped.answers).mp hpiped.1, htype hpiped.answers hpiped.1⟩

end Typing

end TypedPrompt
