/-
# `Proofs.Typing.Passing` — what it takes to pass without a diagnostic

A judgement `Passes` with an answer if it comes to that answer and reports nothing on
the way.  A sequence of judgements passes exactly if each of them does, in turn
(`passes_bind_iff`), so each rule of the checker has one lemma that says what it needs;
the rules for calls and for the stages of pipelines are in `Calls` and `Pipelines`.

Whether there is an answer at all does not depend on what is found on the way: it takes
no more than an answer for each of the parts (`answers_bind_iff`).
-/
import TypedPrompt.Proofs.Correspondence
import TypedPrompt.Proofs.Typing.Completion

namespace TypedPrompt

namespace Judgement

variable {α β : Type} {j : Judgement α} {f : α → Judgement β} {a : α} {b : β}

/-- What comes after an answer. -/
theorem bind_of_answer (h : j.answer = .ok a) :
    j >>= f = ⟨j.log ++ (f a).log, (f a).answer⟩ := by
  obtain ⟨log, answer⟩ := j
  subst h
  rfl

/-- A sequence depends on what comes after the answer of its first part, and on nothing else
of its second part. -/
theorem bind_congr_of_answer {g : α → Judgement β} (h : ∀ a, j.answer = .ok a → f a = g a) :
    j >>= f = j >>= g := by
  obtain ⟨log, answer⟩ := j
  cases answer with
  | error fault => rfl
  | ok a => rw [bind_of_answer rfl, bind_of_answer rfl, h a rfl]

/-- The answer is `a`, and nothing is reported. -/
def Passes (j : Judgement α) (a : α) : Prop := j.log = [] ∧ j.answer = .ok a

theorem Passes.answers (h : j.Passes a) : j.Answers := ⟨a, h.2⟩

/-- With an answer and without diagnostics, a judgement passes. -/
theorem Answers.passes (h : j.Answers) (hlog : j.log = []) : ∃ a, j.Passes a :=
  h.imp fun _ ha => ⟨hlog, ha⟩

@[simp] theorem passes_pure_iff {a' : α} : (Pure.pure a : Judgement α).Passes a' ↔ a = a' :=
  ⟨fun h => Except.ok.inj h.2, fun h => ⟨rfl, congrArg Except.ok h⟩⟩

/-- A sequence passes exactly if its parts do, in turn. -/
theorem passes_bind_iff : (j >>= f).Passes b ↔ ∃ a, j.Passes a ∧ (f a).Passes b := by
  obtain ⟨log, answer⟩ := j
  cases answer with
  | error fault => exact ⟨fun h => (nomatch h.2), fun ⟨_, h, _⟩ => (nomatch h.2)⟩
  | ok a =>
      constructor
      · rintro ⟨hlog, hb⟩
        obtain ⟨hj, hf⟩ := List.append_eq_nil_iff.mp (show log ++ (f a).log = [] from hlog)
        exact ⟨a, ⟨hj, rfl⟩, hf, hb⟩
      · rintro ⟨a', ⟨hj, ha⟩, hf, hb⟩
        cases ha
        exact ⟨List.append_eq_nil_iff.mpr ⟨hj, hf⟩, hb⟩

@[simp] theorem passes_require_iff {c : Bool} {loc : Location} {x : Complaint} {u : Unit} :
    (require c loc x).Passes u ↔ c = true := by
  cases c with
  | true => exact ⟨fun _ => rfl, fun _ => ⟨rfl, rfl⟩⟩
  | false => exact ⟨fun h => (List.cons_ne_nil _ _ h.1).elim, nofun⟩

/-- What is required first has to hold. -/
theorem passes_require_bind_iff {c : Bool} {loc : Location} {x : Complaint}
    {f : Unit → Judgement β} :
    (require c loc x >>= f).Passes b ↔ c = true ∧ (f ()).Passes b := by
  rw [passes_bind_iff]
  exact ⟨fun ⟨_, hc, hb⟩ => ⟨passes_require_iff.mp hc, hb⟩,
    fun ⟨hc, hb⟩ => ⟨(), passes_require_iff.mpr hc, hb⟩⟩

/-- After a report nothing passes. -/
theorem not_passes_report {loc : Location} {x : Complaint} {f : Unit → Judgement β} :
    ¬(report loc x >>= f).Passes b :=
  fun h => List.cons_ne_nil _ _ h.1

/-- A sequence has the answers that its second part has after an answer of the first one. -/
theorem answer_bind_eq_ok_iff :
    (j >>= f).answer = .ok b ↔ ∃ a, j.answer = .ok a ∧ (f a).answer = .ok b := by
  obtain ⟨log, answer⟩ := j
  cases answer with
  | error fault => exact ⟨fun h => (nomatch h), fun ⟨_, h, _⟩ => (nomatch h)⟩
  | ok a => exact ⟨fun h => ⟨a, rfl, h⟩, fun ⟨_, ha, h⟩ => Except.ok.inj ha ▸ h⟩

/-- If the second part has an answer or not whatever the first one finds, then the whole
has one exactly if both parts do. -/
theorem answers_bind_iff {p : Prop} (h : ∀ a, (f a).Answers ↔ p) :
    (j >>= f).Answers ↔ j.Answers ∧ p := by
  constructor
  · rintro ⟨b, hb⟩
    obtain ⟨a, ha, hfa⟩ := answer_bind_eq_ok_iff.mp hb
    exact ⟨⟨a, ha⟩, (h a).mp ⟨b, hfa⟩⟩
  · rintro ⟨⟨a, ha⟩, hp⟩
    obtain ⟨b, hb⟩ := (h a).mpr hp
    exact ⟨b, answer_bind_eq_ok_iff.mpr ⟨a, ha, hb⟩⟩

/-- A second part that always has an answer. -/
theorem answers_bind_left_iff (h : ∀ a, (f a).Answers) : (j >>= f).Answers ↔ j.Answers := by
  rw [answers_bind_iff fun a => iff_true_intro (h a), and_true]

end Judgement

namespace Typing

open Judgement

variable {scope : Scope}

/-- Expressions pass with types, in order. -/
abbrev PassesAll (scope : Scope) : List Expr → List Ty → Prop :=
  List.Forall₂ fun e t => (check scope e).Passes t

theorem checkAll_passes_iff {es : List Expr} {ts : List Ty} :
    (checkAll scope es).Passes ts ↔ PassesAll scope es ts := by
  induction es generalizing ts with
  | nil =>
      rw [checkAll, passes_pure_iff, PassesAll, List.forall₂_nil_left_iff]
      exact eq_comm
  | cons e es ih =>
      simp only [checkAll, passes_bind_iff, passes_pure_iff, ih, List.forall₂_cons_left_iff]
      constructor
      · rintro ⟨t, ht, us, hus, rfl⟩
        exact ⟨t, us, ht, hus, rfl⟩
      · rintro ⟨t, us, ht, hus, rfl⟩
        exact ⟨t, ht, us, hus, rfl⟩

theorem checkAll_answers_iff {es : List Expr} :
    (checkAll scope es).Answers ↔ ∀ e ∈ es, (check scope e).Answers := by
  induction es with
  | nil =>
      rw [checkAll]
      exact ⟨fun _ => nofun, fun _ => ⟨_, rfl⟩⟩
  | cons e es ih =>
      rw [checkAll, List.forall_mem_cons, ← ih]
      exact answers_bind_iff fun _ => answers_bind_left_iff fun _ => ⟨_, rfl⟩

end Typing

end TypedPrompt
