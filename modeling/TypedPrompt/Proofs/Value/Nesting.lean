/-
# `Proofs.Value.Nesting` — how deep a value goes

The nesting of a value is defined by recursion: nothing for a value that is neither an array nor
an object, and otherwise one more than the greatest nesting among its parts (`nesting_of_parts`).
The guard of decoding does not follow this recursion.  It keeps a stack of values with their
depths, takes the parts of one value after another onto it, and stops at the first array or
object beyond the limit.  Both come to the same answer (`nestedDeeperThan_iff_lt_nesting`).

The invariant is that of the stack.  A value that lies at some depth stays within the limit if
its own levels do (`Within`); an array or object does exactly if it is not beyond the limit
itself and its parts, one step deeper, stay within it (`within_iff_of_parts`).  So a round leaves
unchanged whether everything that is pending stays within the limit, and in the end nothing is
pending (`Pending.deeperThan_eq_false_iff`).
-/
import TypedPrompt.Value.Basic

namespace TypedPrompt

namespace Value

variable {v : Value} {vs ws parts : List Value} {es es' : Entries Value}

/-! ## The greatest nesting among some values -/

theorem nestingItems_le_iff {n : Nat} : nestingItems vs ≤ n ↔ ∀ v ∈ vs, v.nesting ≤ n := by
  induction vs with
  | nil => simp [nestingItems]
  | cons v vs ih => rw [nestingItems, Nat.max_le, ih, List.forall_mem_cons]

theorem nesting_le_of_mem_items (h : v ∈ vs) : v.nesting ≤ nestingItems vs :=
  nestingItems_le_iff.mp (Nat.le_refl _) v h

theorem nestingItems_le_of_subset (h : vs ⊆ ws) : nestingItems vs ≤ nestingItems ws :=
  nestingItems_le_iff.mpr fun _ hv => nesting_le_of_mem_items (h hv)

theorem nestingEntries_eq (es : Entries Value) :
    nestingEntries es = nestingItems (es.map Prod.snd) := by
  induction es with
  | nil => rfl
  | cons entry es ih => rw [nestingEntries, List.map_cons, nestingItems, ih]

theorem nesting_le_of_mem_entries {name : String} (h : (name, v) ∈ es) :
    v.nesting ≤ nestingEntries es := by
  rw [nestingEntries_eq]
  exact nesting_le_of_mem_items (List.mem_map_of_mem h)

theorem nesting_le_of_find? {name : String} (h : es.find? name = some v) :
    v.nesting ≤ nestingEntries es := nesting_le_of_mem_entries (Entries.mem_of_find? h)

/-- What an object has as an entry has fewer levels. -/
theorem nesting_lt_of_mem_entries {name : String} (h : (name, v) ∈ es) :
    v.nesting < (obj es).nesting := by
  rw [nesting]
  exact Nat.lt_succ_of_le (nesting_le_of_mem_entries h)

theorem nesting_of_perm (h : es.Perm es') : (obj es).nesting = (obj es').nesting := by
  have hparts : (es.map Prod.snd).Perm (es'.map Prod.snd) := h.map Prod.snd
  rw [nesting, nesting, nestingEntries_eq, nestingEntries_eq]
  exact congrArg (· + 1) (Nat.le_antisymm (nestingItems_le_of_subset hparts.subset)
    (nestingItems_le_of_subset hparts.symm.subset))

/-! ## One level -/

theorem nesting_of_parts?_eq_none (h : v.parts? = none) : v.nesting = 0 := by
  cases v with
  | arr | obj => cases h
  | null | bool | int | real | str => rfl

/-- Arrays and objects, empty ones too, have one level more than what they are made of. -/
theorem nesting_of_parts (h : v.parts? = some parts) : v.nesting = nestingItems parts + 1 := by
  cases v with
  | arr items =>
      obtain rfl : items = parts := Option.some.inj h
      rw [nesting]
  | obj entries =>
      obtain rfl : entries.map Prod.snd = parts := Option.some.inj h
      rw [nesting, nestingEntries_eq]
  | null | bool | int | real | str => cases h

/-! ## The stack of pending values -/

variable {limit : Int} {depth : Nat}

/-- A value that lies at a depth has no array or object beyond the limit.  Its own level, if
there is one, lies at that depth. -/
def Within (limit : Int) (entry : Value × Nat) : Prop :=
  entry.1.nesting = 0 ∨ (entry.2 + entry.1.nesting : Int) ≤ limit + 1

theorem within_of_parts?_eq_none (h : v.parts? = none) : Within limit (v, depth) :=
  .inl (nesting_of_parts?_eq_none h)

theorem within_iff_of_parts (h : v.parts? = some parts) : Within limit (v, depth)
    ↔ depth ≤ limit ∧ ∀ part ∈ parts, Within limit (part, depth + 1) := by
  have hnesting : v.nesting = nestingItems parts + 1 := nesting_of_parts h
  simp only [Within]
  constructor
  · rintro (hzero | hlevels)
    · omega
    · refine ⟨by omega, fun part hpart => .inr ?_⟩
      have hle := nesting_le_of_mem_items hpart
      omega
  · rintro ⟨hdepth, hparts⟩
    -- the room below the value is a bound for each of its parts, and so for the greatest
    have hroom : nestingItems parts ≤ (limit - depth).toNat := by
      refine nestingItems_le_iff.mpr fun part hpart => ?_
      have hwithin := hparts part hpart
      omega
    exact .inr (by omega)

namespace Pending

theorem forall_mem_push {p : Value × Nat → Prop} {pending : Pending} :
    (∀ entry ∈ push depth vs pending, p entry)
      ↔ (∀ v ∈ vs, p (v, depth)) ∧ ∀ entry ∈ pending, p entry := by
  induction vs generalizing pending with
  | nil => simp [push]
  | cons v vs ih =>
      rw [push, ih, List.forall_mem_cons, List.forall_mem_cons, and_left_comm, and_assoc]

/-- The walk ends without finding anything exactly if all that is pending stays within the
limit. -/
theorem deeperThan_eq_false_iff (limit : Int) (pending : Pending) :
    deeperThan limit pending = false ↔ ∀ entry ∈ pending, Within limit entry := by
  fun_induction deeperThan limit pending with
  | case1 => simp
  | case2 v depth pending h ih =>
      -- the value has no level of its own and is dropped
      rw [ih, List.forall_mem_cons]
      exact (and_iff_right (within_of_parts?_eq_none h)).symm
  | case3 v depth pending parts h hdepth =>
      -- the walk ends here, with the value itself beyond the limit
      have hbeyond : ¬ (depth : Int) ≤ limit := Int.not_le.mpr hdepth
      simp [within_iff_of_parts h, hbeyond]
  | case4 v depth pending parts h hdepth ih =>
      -- the parts take the place of the value
      rw [ih, forall_mem_push, List.forall_mem_cons, within_iff_of_parts h,
        and_iff_right (Int.not_lt.mp hdepth)]

end Pending

theorem nestedDeeperThan_eq_false_iff (v : Value) (limit : Int) :
    v.nestedDeeperThan limit = false ↔ v.nesting = 0 ∨ (v.nesting : Int) ≤ limit := by
  rw [nestedDeeperThan, Pending.deeperThan_eq_false_iff, List.forall_mem_singleton]
  simp only [Within]
  omega

theorem nestedDeeperThan_of_perm (h : es.Perm es') (limit : Int) :
    (obj es).nestedDeeperThan limit = (obj es').nestedDeeperThan limit := by
  rw [Bool.eq_iff_iff, ← Bool.not_eq_false, ← Bool.not_eq_false, nestedDeeperThan_eq_false_iff,
    nestedDeeperThan_eq_false_iff, nesting_of_perm h]

/-- The walk over the stack and the recursion on the value agree: the guard strikes exactly if
the value has more levels than the limit allows. -/
theorem nestedDeeperThan_iff_lt_nesting {v : Value} {limit : Int} (h : 0 ≤ limit) :
    v.nestedDeeperThan limit = true ↔ limit < v.nesting := by
  rw [← Bool.not_eq_false, nestedDeeperThan_eq_false_iff]
  omega

/-- An object with an empty array, a number, and an array that holds an empty object in front of
a text: three levels, of which the last is found although nothing is in it. -/
theorem nestedDeeperThan_iff_lt_nesting_mixed :
    let v := Value.obj [("a", .arr []), ("b", .int 1), ("c", .arr [.obj [], .str ""])]
    ((0 : Int) ≤ 2 ∧ 2 < (v.nesting : Int) ∧ v.nestedDeeperThan 2 = true)
      ∧ ((0 : Int) ≤ 3 ∧ ¬ 3 < (v.nesting : Int) ∧ v.nestedDeeperThan 3 = false) := by
  intro v
  have hdeep : 2 < (v.nesting : Int) := by decide
  have hshallow : ¬ 3 < (v.nesting : Int) := by decide
  refine ⟨⟨by decide, hdeep, (nestedDeeperThan_iff_lt_nesting (by decide)).mpr hdeep⟩,
    by decide, hshallow, ?_⟩
  exact Bool.eq_false_iff.mpr (mt (nestedDeeperThan_iff_lt_nesting (by decide)).mp hshallow)

end Value

end TypedPrompt
