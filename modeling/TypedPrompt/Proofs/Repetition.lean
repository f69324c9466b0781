/-
# `Proofs.Repetition` — lists without repetitions

`List.eraseDups` keeps the first of the items that are equal.  Here equality need not be
lawful, nor even reflexive: it is a partial equivalence, as that of types is.

The recursion is not that of lists: behind an item it goes on with what differs from it.
`behind` is the induction that follows it.  That repetitions may just as well be left out
beforehand, in any stretch of a list (`eraseDups_between`), comes from the fact that leaving
them out commutes with leaving out all that equals a given item.
-/

namespace TypedPrompt.Repetition

variable {α : Type} [BEq α]

/-- What holds of the empty list, and of a list if it holds of what differs from its head
behind it, holds of every list. -/
@[elab_as_elim]
theorem behind {motive : List α → Prop} (nil : motive [])
    (cons : ∀ a as, motive (as.filter fun b => !b == a) → motive (a :: as)) :
    ∀ as, motive as := by
  intro as
  induction hn : as.length using Nat.strongRecOn generalizing as with
  | ind n ih =>
      cases as with
      | nil => exact nil
      | cons a as =>
          have hle := List.length_filter_le (fun b => !b == a) as
          exact cons a as (ih _ (by simp only [List.length_cons] at hn; omega) _ rfl)

/-- What asks the same of equal items may be asked before or after. -/
theorem eraseDups_filter {p : α → Bool} (hp : ∀ a b : α, (a == b) = true → p a = p b)
    (as : List α) : (as.filter p).eraseDups = as.eraseDups.filter p := by
  induction as using behind with
  | nil => rfl
  | cons a as ih =>
      rw [List.eraseDups_cons, List.filter_cons, List.filter_cons, ← ih]
      by_cases ha : p a = true
      · rw [if_pos ha, if_pos ha, List.eraseDups_cons]
        simp only [List.filter_filter, Bool.and_comm]
      · rw [if_neg ha, if_neg ha, List.filter_filter]
        refine congrArg List.eraseDups (List.filter_congr fun b _ => ?_)
        -- what equals an item that is left out is left out with it
        cases hb : b == a with
        | true => simp [hp b a hb, ha]
        | false => simp

variable [PartialEquivBEq α]

theorem beq_congr_left {a b : α} (h : (a == b) = true) (c : α) : (a == c) = (b == c) :=
  Bool.eq_iff_iff.mpr ⟨PartialEquivBEq.trans (PartialEquivBEq.symm h), PartialEquivBEq.trans h⟩

theorem eraseDups_filter_ne (a : α) (as : List α) :
    (as.filter fun b => !b == a).eraseDups = as.eraseDups.filter fun b => !b == a :=
  eraseDups_filter (fun _ _ h => by rw [beq_congr_left h]) as

theorem eraseDups_front (as bs : List α) :
    (as.eraseDups ++ bs).eraseDups = (as ++ bs).eraseDups := by
  induction as using behind generalizing bs with
  | nil => rfl
  | cons a as ih =>
      simp only [List.eraseDups_cons, List.cons_append, List.filter_append]
      rw [← ih, eraseDups_filter_ne, List.filter_filter]
      simp only [Bool.and_self]

/-- Within a stretch of a list repetitions may be left out beforehand. -/
theorem eraseDups_between (as bs cs : List α) :
    (as ++ bs.eraseDups ++ cs).eraseDups = (as ++ bs ++ cs).eraseDups := by
  induction as using behind generalizing bs cs with
  | nil => exact eraseDups_front bs cs
  | cons a as ih =>
      simp only [List.cons_append, List.eraseDups_cons, List.filter_append]
      rw [← eraseDups_filter_ne, ih]

end TypedPrompt.Repetition
