/-
# `Proofs.Correspondence` — lists that correspond item by item

What `List.Forall₂` says of single items, and when a function that may fail
answers for each item of a list.  And where one list stands in another: not across
an item that it does not hold.
-/
import Mathlib.Data.List.Forall2

namespace TypedPrompt

variable {α β : Type} {R : α → β → Prop} {as : List α} {bs : List β}

theorem forall₂_mem_left (h : List.Forall₂ R as bs) {a : α} (ha : a ∈ as) :
    ∃ b ∈ bs, R a b := by
  induction h with
  | nil => exact absurd ha List.not_mem_nil
  | cons hr _ ih =>
      rcases List.mem_cons.mp ha with rfl | ha
      · exact ⟨_, List.mem_cons_self, hr⟩
      · obtain ⟨b, hb, h⟩ := ih ha
        exact ⟨b, List.mem_cons_of_mem _ hb, h⟩

theorem forall₂_mem_right (h : List.Forall₂ R as bs) {b : β} (hb : b ∈ bs) :
    ∃ a ∈ as, R a b := by
  obtain ⟨a, ha, h⟩ := forall₂_mem_left h.flip hb
  exact ⟨a, ha, h⟩

theorem forall₂_getElem? (h : List.Forall₂ R as bs) (i : Nat) :
    Option.Rel R as[i]? bs[i]? := by
  induction h generalizing i with
  | nil => exact .none
  | cons hr _ ih =>
      cases i with
      | zero => exact .some hr
      | succ i => exact ih i

/-- Answers about all items of a list. -/
theorem mapM_eq_ok_iff {ε : Type} {f : α → Except ε β} :
    as.mapM f = .ok bs ↔ List.Forall₂ (fun a b => f a = .ok b) as bs := by
  induction as generalizing bs with
  | nil => cases bs <;> simp [Pure.pure, Except.pure]
  | cons a as ih =>
      rw [List.mapM_cons]
      cases ha : f a with
      | error e => cases bs <;> simp [Bind.bind, Except.bind, ha]
      | ok b =>
          cases has : as.mapM f with
          | error e =>
              cases bs <;> simp [Bind.bind, Except.bind, ha, ← ih, has]
          | ok bs' =>
              cases bs <;> simp [Bind.bind, Except.bind, Pure.pure, Except.pure, ha, ← ih, has]

theorem mapM_congr {ε : Type} {f g : α → Except ε β} (h : ∀ a ∈ as, f a = g a) :
    as.mapM f = as.mapM g := by
  induction as with
  | nil => rfl
  | cons a as ih =>
      rw [List.mapM_cons, List.mapM_cons, h a List.mem_cons_self,
        ih fun b hb => h b (List.mem_cons_of_mem a hb)]

/-- There are answers about all items if there is one about each, and what is known of
each is known of all. -/
theorem exists_mapM_forall₂ {ε : Type} {f : α → Except ε β}
    (h : ∀ a ∈ as, ∃ b, f a = .ok b ∧ R a b) :
    ∃ bs, as.mapM f = .ok bs ∧ List.Forall₂ R as bs := by
  induction as with
  | nil => exact ⟨[], rfl, .nil⟩
  | cons a as ih =>
      obtain ⟨b, hb, hr⟩ := h a List.mem_cons_self
      obtain ⟨bs, hbs, hrs⟩ := ih fun c hc => h c (List.mem_cons_of_mem _ hc)
      exact ⟨b :: bs, mapM_eq_ok_iff.mpr (.cons hb (mapM_eq_ok_iff.mp hbs)), .cons hr hrs⟩

/-- There are answers about all items if there is one about each. -/
theorem exists_mapM_eq_ok {ε : Type} {f : α → Except ε β} (h : ∀ a ∈ as, ∃ b, f a = .ok b) :
    ∃ bs, as.mapM f = .ok bs := by
  have hself : ∀ a ∈ as, ∃ b, f a = .ok b ∧ f a = .ok b :=
    fun a ha => (h a ha).imp fun _ hb => ⟨hb, hb⟩
  obtain ⟨bs, hbs, -⟩ := exists_mapM_forall₂ hself
  exact ⟨bs, hbs⟩

/-- If there is no answer about all items, one of them is why. -/
theorem exists_mem_of_mapM_eq_error {ε : Type} {f : α → Except ε β} {e : ε}
    (h : as.mapM f = .error e) : ∃ a ∈ as, f a = .error e := by
  induction as with
  | nil => cases h
  | cons a as ih =>
      rw [List.mapM_cons] at h
      cases ha : f a with
      | error e' =>
          rw [ha] at h
          cases h
          exact ⟨a, List.mem_cons_self, ha⟩
      | ok b =>
          cases has : as.mapM f with
          | error e' =>
              rw [ha, has] at h
              cases h
              obtain ⟨c, hc, hf⟩ := ih has
              exact ⟨c, List.mem_cons_of_mem _ hc, hf⟩
          | ok bs =>
              rw [ha, has] at h
              cases h

/-- There is no answer about all items exactly if there is none about one of them. -/
theorem mapM_fails_iff {ε : Type} {f : α → Except ε β} :
    (∃ e, as.mapM f = .error e) ↔ ∃ a ∈ as, ∃ e, f a = .error e := by
  constructor
  · rintro ⟨e, he⟩
    obtain ⟨a, ha, hf⟩ := exists_mem_of_mapM_eq_error he
    exact ⟨a, ha, e, hf⟩
  · rintro ⟨a, ha, e, he⟩
    cases hm : as.mapM f with
    | error e => exact ⟨e, rfl⟩
    | ok bs =>
        obtain ⟨b, -, hb⟩ := forall₂_mem_left (mapM_eq_ok_iff.mp hm) ha
        rw [he] at hb
        cases hb

/-- What stands across a character stands on one side of it, if it does not hold that character. -/
theorem infix_append_cons {l a b : List α} {c : α} (hc : c ∉ l)
    (h : l <:+: a ++ c :: b) : l <:+: a ∨ l <:+: b := by
  obtain ⟨x, y, hxy⟩ := h
  rcases List.append_eq_append_iff.mp hxy with ⟨ds, rfl, -⟩ | ⟨ds, hx, hb⟩
  · exact .inl ⟨x, ds, rfl⟩
  · cases ds with
    | nil => exact .inl ⟨x, [], by simpa using hx⟩
    | cons d ds =>
        obtain ⟨rfl, rfl⟩ := List.cons.inj hb
        rcases List.append_eq_append_iff.mp hx with ⟨es, rfl, rfl⟩ | ⟨es, rfl, hl⟩
        · simp at hc
        · cases es with
          | nil =>
              obtain rfl : c :: ds = l := hl
              exact absurd List.mem_cons_self hc
          | cons e es =>
              obtain ⟨rfl, rfl⟩ := List.cons.inj hl
              exact .inr ⟨es, y, by simp⟩

end TypedPrompt
