/-
# `Value.Entries` — named entries in the order of insertion

An object keeps its entries in the order in which their names first came up.
Giving a name a second time changes the entry where it stands.  The entries are
a list of pairs; `Distinct` is the property that every list built by `put` from
the empty one has.
-/

namespace TypedPrompt

/-- Named entries, in order. -/
abbrev Entries (α : Type) := List (String × α)

namespace Entries

variable {α : Type}

/-- The entry of a name. -/
def find? : Entries α → String → Option α
  | [], _ => none
  | (key, a) :: rest, name => if key = name then some a else find? rest name

/-- Whether there is an entry of that name. -/
def has (es : Entries α) (name : String) : Bool := (find? es name).isSome

/-- Sets the entry of a name: in its place if the name is there, at the end otherwise. -/
def put : Entries α → String → α → Entries α
  | [], name, a => [(name, a)]
  | (key, b) :: rest, name, a =>
      if key = name then (key, a) :: rest else (key, b) :: put rest name a

/-- The entries of `es` with those of `others` put in one after the other. -/
def putAll (es others : Entries α) : Entries α :=
  others.foldl (fun acc entry => put acc entry.1 entry.2) es

/-- The names, in order. -/
def names (es : Entries α) : List String := es.map Prod.fst

/-- No name comes up twice. -/
def Distinct (es : Entries α) : Prop := (names es).Nodup

/-- A name has its new entry after `put`, and every other name keeps its own. -/
theorem find?_put (es : Entries α) (name : String) (a : α) (other : String) :
    find? (put es name a) other = if name = other then some a else find? es other := by
  induction es with
  | nil => simp [put, find?]
  | cons entry rest ih =>
      obtain ⟨key, b⟩ := entry
      by_cases hk : key = name
      · subst hk
        by_cases ho : key = other <;> simp [put, find?, ho]
      · by_cases ho : key = other
        · subst ho
          simp [put, find?, hk, Ne.symm hk]
        · simp [put, find?, hk, ho, ih]

theorem mem_of_find? {es : Entries α} {name : String} {a : α} (h : find? es name = some a) :
    (name, a) ∈ es := by
  induction es with
  | nil => cases h
  | cons entry rest ih =>
      rw [find?] at h
      split at h
      · next hk =>
          cases h
          exact hk ▸ List.mem_cons_self
      · exact List.mem_cons_of_mem _ (ih h)

/-- Nothing but the new entry comes in. -/
theorem mem_put {es : Entries α} {name key : String} {a b : α} (h : (key, b) ∈ put es name a) :
    (key, b) ∈ es ∨ b = a := by
  induction es with
  | nil =>
      cases List.mem_singleton.mp h
      exact .inr rfl
  | cons entry rest ih =>
      rw [put] at h
      split at h
      · rcases List.mem_cons.mp h with heq | h
        · cases heq
          exact .inr rfl
        · exact .inl (List.mem_cons_of_mem _ h)
      · rcases List.mem_cons.mp h with heq | h
        · exact .inl (heq ▸ List.mem_cons_self)
        · exact (ih h).imp (List.mem_cons_of_mem _) id

/-- There is an entry of a name exactly if the name is among the names. -/
theorem has_iff_mem_names {es : Entries α} {name : String} :
    has es name = true ↔ name ∈ names es := by
  induction es with
  | nil => simp [has, find?, names]
  | cons entry rest ih =>
      obtain ⟨key, b⟩ := entry
      by_cases hk : key = name
      · simp [has, find?, names, hk]
      · have hk' : ¬name = key := fun h => hk h.symm
        simpa [has, find?, names, hk, hk'] using ih

/-- A new name goes to the end. -/
theorem put_of_not_mem {es : Entries α} {name : String} (h : name ∉ names es) (a : α) :
    put es name a = es ++ [(name, a)] := by
  induction es with
  | nil => rfl
  | cons entry rest ih =>
      obtain ⟨key, b⟩ := entry
      simp only [names, List.map_cons, List.mem_cons, not_or] at h
      rw [put, if_neg (Ne.symm h.1), ih h.2, List.cons_append]

/-- Entries with names of their own are all kept as they are. -/
theorem putAll_of_distinct {es others : Entries α} (h : Distinct (es ++ others)) :
    putAll es others = es ++ others := by
  induction others generalizing es with
  | nil => simp [putAll]
  | cons entry rest ih =>
      have hnew : entry.1 ∉ names es := by
        intro hm
        rw [Distinct, names, List.map_append] at h
        exact (List.nodup_append.mp h).2.2 _ hm _ (by simp) rfl
      have hput : put es entry.1 entry.2 = es ++ [entry] := put_of_not_mem hnew entry.2
      have hrest : Distinct (put es entry.1 entry.2 ++ rest) := by
        rwa [hput, List.append_assoc, List.singleton_append]
      rw [putAll, List.foldl_cons]
      refine (ih hrest).trans ?_
      rw [hput, List.append_assoc, List.singleton_append]

end Entries

end TypedPrompt
