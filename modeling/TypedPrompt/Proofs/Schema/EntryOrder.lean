/-
# `Proofs.Schema.EntryOrder` — the order of the entries does not matter

Two texts may hold the same object with its entries in different orders.  Decoding comes to the
same outcome for both (`decode_of_perm`), with values that have the same under each name.

Decoding asks an object three things: how deep it is, what it has under a name, and what it has
under a name up to case.  Depth is a maximum over all entries.  Under a name there is at most
one entry, and if no two names are the same but for case, there is at most one up to case as
well.  So each answer can be given by membership alone, where the order has no part.
-/
import TypedPrompt.Proofs.Schema.Sources
import TypedPrompt.Proofs.Value.Nesting

namespace TypedPrompt

/-! ## What an object is asked -/

namespace Entries

variable {es es' : Entries Value} {name : String} {v : Value}

/-- No two names are the same, not even but for case. -/
def FoldDistinct (es : Entries Value) : Prop := (es.names.map Text.caseFold).Nodup

theorem FoldDistinct.distinct (h : es.FoldDistinct) : es.Distinct := List.Nodup.of_map _ h

theorem FoldDistinct.perm (h : es.FoldDistinct) (hperm : es.Perm es') : es'.FoldDistinct :=
  ((hperm.map Prod.fst).map Text.caseFold).nodup h

/-- Entries whose names are the same but for case are the same. -/
theorem FoldDistinct.eq_of_mem (h : es.FoldDistinct) {entry entry' : String × Value}
    (hmem : entry ∈ es) (hmem' : entry' ∈ es)
    (hfold : Text.caseFold entry.1 = Text.caseFold entry'.1) : entry = entry' := by
  rw [FoldDistinct, names, List.map_map] at h
  exact List.inj_on_of_nodup_map h hmem hmem' hfold

theorem find?_eq_some_iff (h : es.Distinct) : es.find? name = some v ↔ (name, v) ∈ es := by
  refine ⟨mem_of_find?, fun hmem => ?_⟩
  obtain ⟨u, hu⟩ : ∃ u, es.find? name = some u :=
    Option.isSome_iff_exists.mp (has_iff_mem_names.mpr (List.mem_map_of_mem hmem))
  obtain ⟨-, rfl⟩ := Prod.mk.inj (List.inj_on_of_nodup_map h hmem (mem_of_find? hu) rfl)
  exact hu

theorem find?_of_perm (h : es.Distinct) (hperm : es.Perm es') (name : String) :
    es.find? name = es'.find? name := by
  have h' : es'.Distinct := (hperm.map Prod.fst).nodup h
  refine Option.ext fun v => ?_
  rw [find?_eq_some_iff h, find?_eq_some_iff h', hperm.mem_iff]

theorem findLoosely?_eq_some_iff (h : es.FoldDistinct) {entry : String × Value} :
    es.findLoosely? name = some entry
      ↔ entry ∈ es ∧ Text.caseFold entry.1 = Text.caseFold name := by
  refine ⟨fun hentry => ⟨findLoosely?_mem hentry, caseFold_of_findLoosely? hentry⟩, ?_⟩
  rintro ⟨hmem, hfold⟩
  cases hentry : es.findLoosely? name with
  | some other =>
      have hfold' : Text.caseFold other.1 = Text.caseFold name := caseFold_of_findLoosely? hentry
      exact congrArg some (h.eq_of_mem (findLoosely?_mem hentry) hmem (hfold'.trans hfold.symm))
  | none =>
      have hlacks : es.LacksVariants name := findLoosely?_eq_none_iff.mp hentry
      exact absurd hfold (hlacks entry.1 (List.mem_map_of_mem hmem))

theorem findLoosely?_of_perm (h : es.FoldDistinct) (hperm : es.Perm es') (name : String) :
    es.findLoosely? name = es'.findLoosely? name := by
  refine Option.ext fun entry => ?_
  rw [findLoosely?_eq_some_iff h, findLoosely?_eq_some_iff (h.perm hperm), hperm.mem_iff]

end Entries

namespace Value

/-- The same value, or two objects that have the same under each name. -/
inductive SameMapping : Value → Value → Prop
  | refl (v : Value) : SameMapping v v
  | obj {es es' : Entries Value} (h : ∀ name, es.find? name = es'.find? name) :
      SameMapping (obj es) (obj es')

end Value

/-! ## The steps of decoding -/

namespace Schema

variable {s : Schema} {es es' : Entries Value}

/-- What is wrong with an object depends on what it has under each name. -/
theorem violations_of_find? (h : ∀ name, es.find? name = es'.find? name) :
    s.violations (.obj es) = s.violations (.obj es') := by
  have hsame : s.entryViolation es = s.entryViolation es' := by
    funext f
    rw [entryViolation, entryViolation, h f.name]
  rw [violations, violations, hsame]

theorem find?_fillDefaults_of_find? (h : ∀ name, es.find? name = es'.find? name) (name : String) :
    (s.fillDefaults es).find? name = (s.fillDefaults es').find? name := by
  rw [fillDefaults, fillDefaults, find?_foldl_fillDefault, find?_foldl_fillDefault, h name]

theorem correct_of_perm (h : es.FoldDistinct) (hperm : es.Perm es') :
    s.correct (.obj es) = s.correct (.obj es') := by
  refine correct_congr fun f _ => ?_
  rw [correctField, correctField, Entries.findLoosely?_of_perm h hperm f.name]

end Schema

/-- The same outcome, but for the order in which an object has its entries. -/
inductive Decoded.Alike : Decoded → Decoded → Prop
  | refl (d : Decoded) : Alike d d
  | value {v w : Value} (strategy : Strategy) (h : v.SameMapping w) :
      Alike (.value v strategy) (.value w strategy)

/-- There is no outcome on either side, or outcomes that are alike. -/
inductive EndAlike : Except OversizedInteger Decoded → Except OversizedInteger Decoded → Prop
  | fail : EndAlike (.error .mk) (.error .mk)
  | done {d d' : Decoded} (h : d.Alike d') : EndAlike (.ok d) (.ok d')

theorem EndAlike.refl (x : Except OversizedInteger Decoded) : EndAlike x x := by
  cases x with
  | error e => exact .fail
  | ok d => exact .done (.refl d)

namespace Schema

variable {s : Schema} {es es' : Entries Value} {text text' : List Char}

theorem decodeValue_of_perm (h : es.FoldDistinct) (hperm : es.Perm es') :
    EndAlike (s.decodeValue (.obj es)) (s.decodeValue (.obj es')) := by
  have hfind : ∀ name, es.find? name = es'.find? name := Entries.find?_of_perm h.distinct hperm
  have hdeep : s.isTooDeep (.obj es') = s.isTooDeep (.obj es) :=
    (Value.nestedDeeperThan_of_perm hperm _).symm
  have hreport : s.validate (.obj es') = s.validate (.obj es) := by
    rw [validate, validate, violations_of_find? hfind]
  rw [decodeValue, decodeValue, hdeep, hreport, ← correct_of_perm h hperm]
  split
  · exact .refl _
  · cases s.validate (.obj es) with
    | error e => exact .refl _
    | ok before =>
        dsimp only [Bind.bind, Except.bind]
        split
        · exact .done (.value .direct (.obj (find?_fillDefaults_of_find? hfind)))
        · exact .refl _

theorem decode_of_read {v : Value} (h : Json.read text = .ok v) :
    s.decode text = s.decodeValue v := by
  rw [decode, readLoosely, h]

/-- Two texts that hold the same object, with its entries in different orders and no two names
the same but for case, are decoded alike: to values with the same under each name, in the same
way, or to nothing, with the same violations.  If an integer has too many digits for one of
them to have an outcome, then neither has. -/
theorem decode_of_perm (hread : Json.read text = .ok (.obj es))
    (hread' : Json.read text' = .ok (.obj es')) (hperm : es.Perm es') (h : es.FoldDistinct) :
    s.decode text = .error .mk ∧ s.decode text' = .error .mk
      ∨ ∃ d d', s.decode text = .ok d ∧ s.decode text' = .ok d'
          ∧ d.isSuccess = d'.isSuccess ∧ d.strategyName = d'.strategyName
          ∧ d.violations = d'.violations ∧ d.payload.SameMapping d'.payload := by
  rw [decode_of_read hread, decode_of_read hread']
  have hend : EndAlike (s.decodeValue (.obj es)) (s.decodeValue (.obj es')) :=
    decodeValue_of_perm h hperm
  generalize s.decodeValue (.obj es) = x, s.decodeValue (.obj es') = y at hend ⊢
  cases hend with
  | fail => exact .inl ⟨rfl, rfl⟩
  | done halike =>
      refine .inr ⟨_, _, rfl, rfl, ?_⟩
      cases halike with
      | refl d => exact ⟨rfl, rfl, rfl, .refl _⟩
      | value strategy hsame => exact ⟨rfl, rfl, rfl, hsame⟩

/-- Two orders of an object that is valid as it is, with an entry that is not declared and a
default to fill in. -/
theorem decode_of_perm_person :
    let age : SchemaField := ⟨"age", .number, true, none, some Value.isPositive, none⟩
    let tags : SchemaField := ⟨"tags", .list .string none none, true, none, none, some (.arr [])⟩
    let s : Schema := ⟨"Person", [age, tags], none, 4, by decide⟩
    let es : Entries Value := [("age", .int 41), ("note", .null)]
    let es' : Entries Value := [("note", .null), ("age", .int 41)]
    Json.read "\x7b\"age\": 41, \"note\": null\x7d".toList = .ok (.obj es)
      ∧ Json.read "\x7b\"note\": null, \"age\": 41\x7d".toList = .ok (.obj es')
      ∧ es.Perm es' ∧ es.FoldDistinct
      ∧ ∃ d d', s.decode "\x7b\"age\": 41, \"note\": null\x7d".toList = .ok d
        ∧ s.decode "\x7b\"note\": null, \"age\": 41\x7d".toList = .ok d'
        ∧ d.strategyName = "direct" ∧ d'.strategyName = "direct"
        ∧ d.payload.SameMapping d'.payload := by
  intro age tags s es es'
  have hread : Json.read "\x7b\"age\": 41, \"note\": null\x7d".toList = .ok (.obj es) := by
    cbv
  have hread' : Json.read "\x7b\"note\": null, \"age\": 41\x7d".toList = .ok (.obj es') := by
    cbv
  have hperm : es.Perm es' := .swap _ _ []
  have h : es.FoldDistinct := by
    unfold Entries.FoldDistinct
    decide
  have hdecode : s.decode "\x7b\"age\": 41, \"note\": null\x7d".toList
      = .ok (.value (.obj [("age", .int 41), ("note", .null), ("tags", .arr [])]) .direct) := by
    cbv
  rcases decode_of_perm (s := s) hread hread' hperm h with
    ⟨herror, -⟩ | ⟨d, d', hd, hd', -, hstrategy, -, hpayload⟩
  · rw [hdecode] at herror
    cases herror
  · obtain rfl := Except.ok.inj (hdecode.symm.trans hd)
    exact ⟨hread, hread', hperm, h, _, d', hdecode, hd', rfl, hstrategy.symm, hpayload⟩

end Schema

end TypedPrompt
