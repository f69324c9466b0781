/-
# `Proofs.Schema.Projection` — the projection against the test

The constraint of a type says of a value what the type says of it, but for unions:
a union contains what some member contains, and its constraint asks for one member
and no other.  So what satisfies the constraint is of the type (`Constrains.sound`),
whatever the unions in it, and what is of the type satisfies the constraint unless
two members of a union contain the same part of it (`Constrains.complete`,
`Unambiguous`).  That does happen: the empty list is of both `list[string]` and
`list[number]`, and the projection of their union turns it away
(`constraint_rejects_shared`).

Both halves go by one induction on the type.  They cannot be separated: that a
union has one accepting member needs the soundness of the constraints of the others.
-/
import TypedPrompt.Proofs.Correspondence
import TypedPrompt.Proofs.Schema.Constraints
import TypedPrompt.Proofs.Schema.Membership
import TypedPrompt.Proofs.Ty.NormalForm
import TypedPrompt.Schema.Validation

namespace TypedPrompt

open JsonSchema

namespace Ty

/-! ## Projectable types and unambiguous values -/

/-- Functions and prompts have no projection. -/
def isProjectableNode : Ty → Bool
  | function _ _ | prompt _ _ _ _ => false
  | _ => true

/-- No component is a function or a prompt, and no record names a field twice. -/
structure Projectable (t : Ty) : Prop where
  projects : t.everywhere isProjectableNode = true
  named : t.namesFieldsOnce = true

namespace Projectable

variable {t u : Ty}

theorem part (h : Projectable t) (hu : u ∈ t.parts) : Projectable u :=
  ⟨everywhere_part h.projects hu, everywhere_part h.named hu⟩

end Projectable

mutual

/-- No part of the value is of two members of a union that it is held against. -/
def Unambiguous : Ty → Value → Prop
  | dynamicOf c, v => Unambiguous c v
  | list e _ _, .arr items => ∀ x ∈ items, Unambiguous e x
  | record fs _, .obj es => UnambiguousFields fs es
  | union ts, v => (ts.Pairwise fun t u => ¬(Contains t v ∧ Contains u v)) ∧ UnambiguousMembers ts v
  | inter ts, v => UnambiguousMembers ts v
  | _, _ => True

/-- The value is unambiguous in those of the types that it is of. -/
def UnambiguousMembers : List Ty → Value → Prop
  | [], _ => True
  | t :: ts, v => (Contains t v → Unambiguous t v) ∧ UnambiguousMembers ts v

/-- The entries are unambiguous in the types of their fields. -/
def UnambiguousFields : List (Field Ty) → Entries Value → Prop
  | [], _ => True
  | ⟨name, t, _, _⟩ :: fs, es =>
      (match Entries.find? es name with
        | some v => Unambiguous t v
        | none => True) ∧ UnambiguousFields fs es

end

theorem unambiguousMembers_iff {ts : List Ty} {v : Value} :
    UnambiguousMembers ts v ↔ ∀ t ∈ ts, Contains t v → Unambiguous t v := by
  induction ts with
  | nil => simp [UnambiguousMembers]
  | cons t ts ih => simp [UnambiguousMembers, ih]

theorem unambiguousFields_iff {fs : List (Field Ty)} {es : Entries Value} :
    UnambiguousFields fs es ↔
      ∀ f ∈ fs, ∀ v, Entries.find? es f.name = some v → Unambiguous f.type v := by
  induction fs with
  | nil => simp [UnambiguousFields]
  | cons f fs ih =>
      obtain ⟨name, t, isOptional, description⟩ := f
      rw [UnambiguousFields, ih, List.forall_mem_cons]
      cases Entries.find? es name <;> simp

/-! ## Constraints of types -/

/-- The constraint says of a value what the type does. -/
structure Constrains (c : Constraint) (t : Ty) : Prop where
  sound : ∀ {v}, c.admits v = true → Contains t v
  complete : ∀ {v}, Contains t v → Unambiguous t v → c.admits v = true

/-- The property has the name, and a constraint of the type. -/
def Describes (name : String) (t : Ty) (p : String × Value) : Prop :=
  p.1 = name ∧ ∃ c, p.2 = .obj c ∧ Constrains c t

theorem Constrains.described {c : Constraint} {t : Ty} (h : Constrains c t)
    (description : Option String) : Constrains (c.describedBy description) t where
  sound hv := h.sound (by rwa [Constraint.admits_describedBy] at hv)
  complete hv hu := by
    rw [Constraint.admits_describedBy]
    exact h.complete hv hu

section Members

variable {ts : List Ty} {cs : List Constraint} {v : Value}

theorem constrains_inter (h : List.Forall₂ (fun t c => Constrains c t) ts cs) :
    Constrains [("allOf", .arr (cs.map .obj))] (inter ts) where
  sound hv := by
    rw [contains_inter]
    intro t ht
    obtain ⟨c, hc, hct⟩ := forall₂_mem_left h ht
    exact hct.sound (Constraint.admits_allOf.mp hv c hc)
  complete hv hu := by
    rw [Constraint.admits_allOf]
    intro c hc
    obtain ⟨t, ht, hct⟩ := forall₂_mem_right h hc
    have htv := contains_inter.mp hv t ht
    exact hct.complete htv (unambiguousMembers_iff.mp hu t ht htv)

/-- No constraint admits a value that is of none of the types. -/
theorem countP_admits_eq_zero (h : List.Forall₂ (fun t c => Constrains c t) ts cs)
    (hv : ∀ t ∈ ts, ¬Contains t v) : (cs.countP fun c => c.admits v) = 0 := by
  rw [List.countP_eq_zero]
  intro c hc hcv
  obtain ⟨t, ht, hct⟩ := forall₂_mem_right h hc
  exact hv t ht (hct.sound hcv)

/-- One constraint admits a value that is of just one of the types. -/
theorem countP_admits_eq_one (h : List.Forall₂ (fun t c => Constrains c t) ts cs)
    (hv : ∃ t ∈ ts, Contains t v) (hd : ts.Pairwise fun t u => ¬(Contains t v ∧ Contains u v))
    (hu : ∀ t ∈ ts, Contains t v → Unambiguous t v) :
    (cs.countP fun c => c.admits v) = 1 := by
  induction h with
  | nil => exact absurd hv (by simp)
  | @cons t c ts cs hct h ih =>
      rw [List.pairwise_cons] at hd
      -- the first type is the one that contains the value, or it has no say in the count
      by_cases htv : Contains t v
      · have hone := hct.complete htv (hu t List.mem_cons_self htv)
        have hzero := countP_admits_eq_zero h fun u hmem huv => hd.1 u hmem ⟨htv, huv⟩
        rw [List.countP_cons, hzero, if_pos hone]
      · have hnone : ¬c.admits v = true := fun hcv => htv (hct.sound hcv)
        rw [List.countP_cons, if_neg hnone]
        refine ih ?_ hd.2 fun u hmem => hu u (List.mem_cons_of_mem t hmem)
        obtain ⟨u, hmem, huv⟩ := hv
        rcases List.mem_cons.mp hmem with rfl | hmem
        · exact absurd huv htv
        · exact ⟨u, hmem, huv⟩

theorem constrains_union (h : List.Forall₂ (fun t c => Constrains c t) ts cs) :
    Constrains [("oneOf", .arr (cs.map .obj))] (union ts) where
  sound {v} hv := by
    have hcount := Constraint.admits_oneOf.mp hv
    have hpos : 0 < cs.countP fun c => c.admits v := by omega
    obtain ⟨c, hc, hcv⟩ := List.countP_pos_iff.mp hpos
    obtain ⟨t, ht, hct⟩ := forall₂_mem_right h hc
    exact contains_union.mpr ⟨t, ht, hct.sound hcv⟩
  complete hv hu :=
    Constraint.admits_oneOf.mpr (countP_admits_eq_one h (contains_union.mp hv) hu.1
      (unambiguousMembers_iff.mp hu.2))

end Members

theorem constrains_primitive (p : Primitive) :
    Constrains (Constraint.ofKind p.name) (primitive p) := by
  have hk (v : Value) : (Constraint.ofKind p.name).admits v = p.holds v := by
    rw [Constraint.admits_eq, Constraint.holdAll_ofKind]
    cases p <;> cases v <;> rfl
  exact ⟨fun hv => by rwa [hk] at hv, fun hv _ => by rwa [hk]⟩

theorem constrains_list {e : Ty} {c : Constraint} (h : Constrains c e) (least most : Option Int) :
    Constrains (Constraint.ofKind "array" ++ [("items", .obj c)]
      ++ Constraint.bound "minItems" least ++ Constraint.bound "maxItems" most)
      (list e least most) where
  sound hv := by
    obtain ⟨items, rfl, hb, hi⟩ := Constraint.admits_list.mp hv
    exact ⟨items, rfl, hb, fun x hx => h.sound (hi x hx)⟩
  complete hv hu := by
    obtain ⟨items, rfl, hb, hi⟩ := hv
    exact Constraint.admits_list.mpr ⟨items, rfl, hb, fun x hx => h.complete (hi x hx) (hu x hx)⟩

/-! ### Properties -/

section Properties

variable {α : Type} {name : α → String} {type : α → Ty} {fs : List α}
  {properties es : Entries Value}

theorem names_of_describes
    (h : List.Forall₂ (fun f p => Describes (name f) (type f) p) fs properties) :
    Entries.names properties = fs.map name := by
  induction h with
  | nil => rfl
  | cons hp _ ih => rw [List.map_cons, ← ih, ← hp.1]; rfl

/-- Where all properties accept, each entry is of the type of its field. -/
theorem contains_of_accepted
    (h : List.Forall₂ (fun f p => Describes (name f) (type f) p) fs properties)
    (ha : ∀ p ∈ properties, entryAccepted es p = true) {f : α} (hf : f ∈ fs) {v : Value}
    (hv : es.find? (name f) = some v) : Contains (type f) v := by
  obtain ⟨p, hp, hname, c, hc, hct⟩ := forall₂_mem_left h hf
  have hacc := ha p hp
  rw [entryAccepted, hname, hv, hc] at hacc
  exact hct.sound hacc

/-- Where each entry is of the type of its field and unambiguous, all properties accept. -/
theorem accepted_of_contains
    (h : List.Forall₂ (fun f p => Describes (name f) (type f) p) fs properties)
    (hv : ∀ f ∈ fs, ∀ v, es.find? (name f) = some v → Contains (type f) v ∧ Unambiguous (type f) v)
    {p : String × Value} (hp : p ∈ properties) : entryAccepted es p = true := by
  obtain ⟨f, hf, hname, c, hc, hct⟩ := forall₂_mem_right h hp
  rw [entryAccepted, hname, hc]
  split
  · next v hfind =>
      obtain ⟨hcv, huv⟩ := hv f hf v hfind
      exact hct.complete hcv huv
  · rfl

end Properties

theorem declaresAll_eq {fs : List (Field Ty)} {properties : Entries Value}
    (h : Entries.names properties = fs.map Field.name) (es : Entries Value) :
    declaresAll fs es = es.all fun entry => Entries.has properties entry.1 := by
  have hname (name : String) : (fs.any fun f => f.name == name) = Entries.has properties name := by
    rw [Bool.eq_iff_iff, Entries.has_iff_mem_names, h]
    simp
  simp only [declaresAll, hname]

theorem constrains_record {fs : List (Field Ty)} {properties : Entries Value} (isOpen : Bool)
    (h : List.Forall₂ (fun f p => Describes f.name f.type p) fs properties) :
    Constrains (Constraint.object properties ((fs.filter fun f => !f.isOptional).map Field.name)
      ++ if isOpen then [] else [("additionalProperties", .bool false)]) (record fs isOpen) where
  sound hv := by
    obtain ⟨es, rfl, ha, hr, ho⟩ := Constraint.admits_object.mp hv
    rw [← declaresAll_eq (names_of_describes h)] at ho
    refine ⟨es, rfl, containsFields_iff.mpr fun f hf => ?_, ho⟩
    unfold ContainsField
    split
    · next w hw => exact contains_of_accepted h ha hf hw
    · next hnone =>
        by_contra hopt
        have hreq : f.name ∈ (fs.filter fun f => !f.isOptional).map Field.name :=
          List.mem_map_of_mem (List.mem_filter.mpr ⟨hf, by simpa using hopt⟩)
        have hhas := hr f.name hreq
        simp [Entries.has, hnone] at hhas
  complete hv hu := by
    obtain ⟨es, rfl, hf, ho⟩ := hv
    rw [declaresAll_eq (names_of_describes h)] at ho
    have held := containsFields_iff.mp hf
    have unique := unambiguousFields_iff.mp hu
    refine Constraint.admits_object.mpr ⟨es, rfl, fun p hp => ?_, ?_, ho⟩
    · refine accepted_of_contains h (fun f hf w hw => ⟨?_, unique f hf w hw⟩) hp
      simpa [ContainsField, hw] using held f hf
    · intro name hname
      obtain ⟨f, hmem, rfl⟩ := List.mem_map.mp hname
      obtain ⟨hf, hopt⟩ := List.mem_filter.mp hmem
      have hfield := held f hf
      cases hfind : Entries.find? es f.name with
      | some w => simp [Entries.has, hfind]
      | none => simp_all [ContainsField]

/-! ### The induction on types -/

mutual

/-- A projectable type has a constraint, and it says what the type does. -/
theorem constraint_constrains :
    ∀ t : Ty, Projectable t → ∃ c, t.constraint = .ok c ∧ Constrains c t := by
  intro t h
  cases t with
  | primitive p => exact ⟨_, rfl, constrains_primitive p⟩
  | any | dynamic => exact ⟨[], rfl, fun _ => trivial, fun _ _ => rfl⟩
  | never =>
      exact ⟨_, rfl, fun hv => absurd hv (by simp [Constraint.admits_never]), fun hv => hv.elim⟩
  | dynamicOf e =>
      obtain ⟨c, hc, hce⟩ := constraint_constrains e (h.part (List.mem_singleton_self e))
      exact ⟨c, hc, hce.sound, hce.complete⟩
  | list e least most =>
      obtain ⟨c, hc, hce⟩ := constraint_constrains e (h.part (List.mem_singleton_self e))
      refine ⟨_, ?_, constrains_list hce least most⟩
      rw [constraint, hc]
      rfl
  | record fs isOpen =>
      obtain ⟨properties, hp, hd⟩ :=
        fieldConstraints_describe fs fun f hf => h.part (List.mem_map_of_mem hf)
      refine ⟨_, ?_, constrains_record isOpen hd⟩
      have hdistinct : Entries.Distinct ([] ++ properties) := by
        rw [List.nil_append, Entries.Distinct, names_of_describes hd]
        exact nodup_of_namesFieldsOnce h.named
      have hkept : Entries.putAll [] properties = properties := Entries.putAll_of_distinct hdistinct
      rw [constraint, hp]
      simp only [Bind.bind, Except.bind, hkept]
  | function => exact absurd (everywhere_here h.projects) (by simp [isProjectableNode])
  | union ts =>
      obtain ⟨cs, hc, hcs⟩ := constraints_constrain ts fun t ht => h.part ht
      refine ⟨_, ?_, constrains_union hcs⟩
      rw [constraint, hc]
      rfl
  | inter ts =>
      obtain ⟨cs, hc, hcs⟩ := constraints_constrain ts fun t ht => h.part ht
      refine ⟨_, ?_, constrains_inter hcs⟩
      rw [constraint, hc]
      rfl
  | prompt => exact absurd (everywhere_here h.projects) (by simp [isProjectableNode])

theorem constraints_constrain :
    ∀ ts : List Ty, (∀ t ∈ ts, Projectable t) →
      ∃ cs : List Constraint, constraints ts = .ok (cs.map .obj) ∧
        List.Forall₂ (fun t c => Constrains c t) ts cs
  | [], _ => ⟨[], rfl, .nil⟩
  | t :: ts, h => by
      obtain ⟨c, hc, hct⟩ := constraint_constrains t (h t List.mem_cons_self)
      obtain ⟨cs, hcs, hcts⟩ := constraints_constrain ts fun u hu => h u (List.mem_cons_of_mem t hu)
      refine ⟨c :: cs, ?_, .cons hct hcts⟩
      rw [constraints, hc, hcs]
      rfl

theorem fieldConstraints_describe :
    ∀ fs : List (Field Ty), (∀ f ∈ fs, Projectable f.type) →
      ∃ properties, fieldConstraints fs = .ok properties ∧
        List.Forall₂ (fun f p => Describes f.name f.type p) fs properties
  | [], _ => ⟨[], rfl, .nil⟩
  | ⟨name, t, isOptional, description⟩ :: fs, h => by
      obtain ⟨c, hc, hct⟩ := constraint_constrains t (h _ List.mem_cons_self)
      obtain ⟨properties, hp, hd⟩ :=
        fieldConstraints_describe fs fun f hf => h f (List.mem_cons_of_mem _ hf)
      refine ⟨(name, .obj (c.describedBy description)) :: properties, ?_,
        .cons ⟨rfl, _, rfl, hct.described description⟩ hd⟩
      rw [fieldConstraints, hc, hp]
      rfl

end

/-! ## What the projection of a type leaves out -/

/-- The projection of a type admits every value that fits the type, provided that
wherever a part of the value is held against a union, just one member contains it. -/
theorem admits_of_fit {t : Ty} (ht : Projectable t) :
    ∃ c, t.constraint = .ok c ∧
      ∀ room v, t.fit room v = .fits → Unambiguous t v → c.admits v = true := by
  obtain ⟨c, hc, hct⟩ := constraint_constrains t ht
  exact ⟨c, hc, fun _ _ hv hu => hct.complete (contains_of_fit hv) hu⟩

/-- A list of numbers where a list of texts may stand as well. -/
theorem admits_of_fit_numbers :
    let items := union [list string none none, list number (some 1) none]
    let t := record [⟨"items", items, false, some "labels"⟩, ⟨"note", dynamicOf null, true, none⟩]
      false
    let v := Value.obj [("items", .arr [.int 3])]
    Projectable t ∧ t.fit 8 v = .fits ∧ Unambiguous t v ∧
      ∃ c, t.constraint = .ok c ∧ c.admits v = true := by
  intro items t v
  have ht : Projectable t := ⟨rfl, rfl⟩
  have hfit : t.fit 8 v = .fits := rfl
  have hu : Unambiguous t v := by
    simp [t, v, items, Unambiguous, UnambiguousFields, UnambiguousMembers, Contains,
      Entries.find?, Primitive.holds]
  obtain ⟨c, hc, h⟩ := admits_of_fit ht
  exact ⟨ht, hfit, hu, c, hc, h 8 v hfit hu⟩

/-- An empty list fits the union of two types of lists, and the projection of the
union turns it away. -/
theorem constraint_rejects_shared :
    let t := union [list string none none, list number none none]
    Projectable t ∧ t.fit 64 (.arr []) = .fits ∧
      ∃ c, t.constraint = .ok c ∧ c.admits (.arr []) = false :=
  ⟨⟨rfl, rfl⟩, rfl, _, rfl, rfl⟩

end Ty

namespace Schema

variable {s : Schema}

/-- The properties of a projection are about the fields, one for one. -/
theorem exists_constraint (ht : ∀ f ∈ s.fields, f.type.Projectable) :
    ∃ properties,
      s.constraint = .ok (Constraint.object properties
        ((s.fields.filter SchemaField.isRequired).map SchemaField.name)) ∧
      List.Forall₂ (fun f p => Ty.Describes f.name f.type p) s.fields properties := by
  have property : ∀ f ∈ s.fields, ∃ p,
      (do .ok (f.name, .obj (Constraint.describedBy (← f.type.constraint) f.description)))
        = Except.ok p ∧ Ty.Describes f.name f.type p := by
    intro f hf
    obtain ⟨c, hc, hct⟩ := Ty.constraint_constrains f.type (ht f hf)
    refine ⟨(f.name, .obj (c.describedBy f.description)), ?_, rfl, _, rfl, hct.described _⟩
    rw [hc]
    rfl
  obtain ⟨properties, hp, hd⟩ := exists_mapM_forall₂ property
  refine ⟨properties, ?_, hd⟩
  rw [constraint, hp]
  rfl

/-- An object that satisfies the projection of a schema without predicates is valid. -/
theorem isValid_of_admits {s : Schema} (hp : ∀ f ∈ s.fields, f.predicate = none)
    (ht : ∀ f ∈ s.fields, f.type.Projectable)
    (hroom : ∀ f ∈ s.fields, (f.type.height : Int) ≤ s.maxValueDepth) :
    ∃ c, s.constraint = .ok c ∧ ∀ v, c.admits v = true → s.isValid v = true := by
  obtain ⟨properties, hc, hd⟩ := exists_constraint ht
  refine ⟨_, hc, fun v hv => ?_⟩
  obtain ⟨es, rfl, ha, hr⟩ := Constraint.admits_open.mp hv
  rw [isValid_obj_iff]
  intro f hf
  unfold entryViolation
  split
  · next w hw =>
      have hfit : s.fitField f w = .fits :=
        (Ty.fit_eq_fits_iff (hroom f hf)).mpr (Ty.contains_of_accepted hd ha hf hw)
      simp [fieldViolation, hfit, SchemaField.isSatisfiedBy, hp f hf]
  · next hnone =>
      have hnot : f.mustBePresent = false := by
        by_contra hmust
        have hreq : f.isRequired = true := by
          simp only [SchemaField.mustBePresent, Bool.not_eq_false, Bool.and_eq_true] at hmust
          exact hmust.1
        have hhas := hr f.name (List.mem_map_of_mem (List.mem_filter.mpr ⟨hf, hreq⟩))
        simp [Entries.has, hnone] at hhas
      simp [hnot]

/-- A schema with a closed record inside a union, and a default. -/
theorem isValid_of_admits_person :
    let address := Ty.record [⟨"city", .string, false, none⟩, ⟨"zip", .number, true, none⟩] false
    let home : SchemaField := ⟨"home", .union [address, .null], true, some "or null", none, none⟩
    let tags : SchemaField :=
      ⟨"tags", .list .string none (some 3), true, none, none, some (.arr [])⟩
    let s : Schema := ⟨"Person", [home, tags], none, 4, by decide⟩
    let v := Value.obj [("tags", .arr [.str "a"]), ("home", .obj [("city", .str "B")])]
    (∀ f ∈ s.fields, f.predicate = none ∧ f.type.Projectable ∧
        (f.type.height : Int) ≤ s.maxValueDepth) ∧
      ∃ c, s.constraint = .ok c ∧ c.admits v = true ∧ s.isValid v = true := by
  intro address home tags s v
  have held : ∀ f ∈ s.fields, f.predicate = none ∧ f.type.Projectable ∧
      (f.type.height : Int) ≤ s.maxValueDepth := by
    intro f hf
    simp only [s, List.mem_cons, List.not_mem_nil, or_false] at hf
    rcases hf with rfl | rfl
    · exact ⟨rfl, ⟨rfl, rfl⟩, by decide⟩
    · exact ⟨rfl, ⟨rfl, rfl⟩, by decide⟩
  obtain ⟨c, hc, h⟩ := isValid_of_admits (fun f hf => (held f hf).1) (fun f hf => (held f hf).2.1)
    (fun f hf => (held f hf).2.2)
  have hv : c.admits v = true := by
    cases hc
    rfl
  exact ⟨held, c, hc, hv, h v hv⟩

end Schema

end TypedPrompt
