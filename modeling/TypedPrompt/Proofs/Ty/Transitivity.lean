/-
# `Proofs.Ty.Transitivity` — the subtype test is transitive on strict types

The rules for the two sides are tried in a fixed order, so the type in the middle
may be taken apart in one way on its left and in another way on its right.  The
proof goes down in the three sizes together and follows the rule for the second
pair; the first pair is then taken apart as the shape of the middle type demands.
Two facts carry it:

* what is above a union is above each of its members (`le_of_union_le`);
* below `never` there is only `never` (`eq_never_of_le_never`).

The dynamic type has to be kept out, since it is below and above everything.  So
have optional fields: a record may leave one out and still be below a record that
gives it any type.
-/
import TypedPrompt.Proofs.Ty.NormalForm

namespace TypedPrompt.Ty

/-! ## Taking unions, `any` and `never` apart -/

/-- A union that is below `t` has each of its members below `t`, if none of them
is a union itself. -/
theorem le_of_union_le {ss : List Ty} {s : Ty} (hs : s ∈ ss) (hu : s.isUnion = false) :
    ∀ {t : Ty}, (union ss).isSubtype t = true → s.isSubtype t = true := by
  intro t
  induction hn : sizeOf t using Nat.strongRecOn generalizing t with
  | ind n ih =>
      subst hn
      intro h
      refine isSubtype_iff_rule.mpr ?_
      cases isSubtype_iff_rule.mp h with
      | top => exact .top
      | trusted hd => exact absurd hd (by simp [isDynamic])
      | unchecked => exact .unchecked
      | @constrained _ c hc =>
          have hlt := sizeOf_lt_of_mem_parts (t := dynamicOf c) (List.mem_singleton_self c)
          exact .constrained (ih _ hlt rfl hc)
      | unions hm => exact .toMember hu (hm s hs)
      | toMember hn _ => exact absurd hn (by simp [isUnion])
      | toEach hm =>
          exact .toEach fun t ht => ih _ (sizeOf_lt_of_mem_parts (t := inter _) ht) rfl (hm t ht)
      | ofEach _ hm => exact isSubtype_iff_rule.mp (hm s hs)

/-- Below `never` there is only `never`. -/
theorem eq_never_of_le_never :
    ∀ {s : Ty}, Strict s → s.isSubtype never = true → s = never := by
  intro s
  induction hn : sizeOf s using Nat.strongRecOn generalizing s with
  | ind n ih =>
      subst hn
      intro hs h
      cases isSubtype_iff_rule.mp h with
      | bottom => rfl
      | trusted hd => exact absurd hd (by simp [hs.not_dynamic])
      | @ofMember ss _ _ h =>
          obtain ⟨u, hu, h⟩ := h
          obtain rfl := ih _ (sizeOf_lt_of_mem_parts (t := inter ss) hu) rfl (hs.part hu) h
          exact absurd (hs.member_inter hu) (by simp [isNever])
      | @ofEach ss _ _ h =>
          obtain ⟨u, hu⟩ := hs.exists_member
          obtain rfl := ih _ (sizeOf_lt_of_mem_parts (t := union ss) hu) rfl (hs.part hu) (h u hu)
          exact absurd (hs.member_union hu).2 (by simp [isNever])

/-- A type below a member of a union is below the union. -/
theorem le_union_of_le {s t : Ty} {ts : List Ty} (hs : Strict s) (ht : t ∈ ts)
    (h : s.isSubtype t = true) : s.isSubtype (union ts) = true := by
  refine isSubtype_iff_rule.mpr ?_
  by_cases hu : s.isUnion = true
  · cases s with
    | union ss =>
        exact .unions fun u hm => ⟨t, ht, le_of_union_le hm (hs.member_union hm).1 h⟩
    | _ => simp [isUnion] at hu
  · exact .toMember (by simpa using hu) ⟨t, ht, h⟩

/-! ## Two solid types on the right

A union or an intersection on the left is taken apart in the same way against
either of them; what is left is a solid type on the left. -/

theorem le_of_le_of_solid {a b c : Ty} (ha : Strict a) (hb : b.isSolid = true)
    (hc : c.isSolid = true)
    (ih : ∀ a' ∈ a.parts, a'.isSubtype b = true → a'.isSubtype c = true)
    (solid : a.isSolid = true → a.isSubtype c = true) (h : a.isSubtype b = true) :
    a.isSubtype c = true := by
  cases a with
  | union as =>
      refine isSubtype_iff_rule.mpr (.ofEach hc fun a' ha' => ih a' ha' ?_)
      exact le_of_union_le ha' (ha.member_union ha').1 h
  | inter as =>
      cases isSubtype_iff_rule.mp h with
      | ofMember _ h =>
          obtain ⟨a', ha', h⟩ := h
          exact isSubtype_iff_rule.mpr (.ofMember hc ⟨a', ha', ih a' ha' h⟩)
      | _ => simp [isSolid, isDynamic] at *
  | any => cases isSubtype_iff_rule.mp h <;> simp [isSolid, isDynamic] at *
  | dynamic => exact absurd ha.not_dynamic (by simp [isDynamic])
  | dynamicOf c => exact absurd ha.not_dynamic (by simp [isDynamic])
  | _ => exact solid rfl

/-! ## Fields and parameters -/

/-- Transitivity for types whose sizes come to less than `n` together. -/
def TransBelow (n : Nat) : Prop :=
  ∀ a b c : Ty, sizeOf a + sizeOf b + sizeOf c < n → Strict a → Strict b → Strict c →
    a.isSubtype b = true → b.isSubtype c = true → a.isSubtype c = true

theorem TransBelow.apply {n : Nat} (ih : TransBelow n) {a b c a' b' c' : Ty}
    (hn : sizeOf a + sizeOf b + sizeOf c < n + 1) (ha : Strict a) (hb : Strict b) (hc : Strict c)
    (ha' : a' ∈ a :: a.parts) (hb' : b' ∈ b.parts) (hc' : c' ∈ c :: c.parts)
    (h : a'.isSubtype b' = true) (h' : b'.isSubtype c' = true) : a'.isSubtype c' = true := by
  have hbs := sizeOf_lt_of_mem_parts hb'
  have hac : sizeOf a' ≤ sizeOf a ∧ Strict a' := by
    rcases List.mem_cons.mp ha' with rfl | ha'
    · exact ⟨Nat.le_refl _, ha⟩
    · exact ⟨Nat.le_of_lt (sizeOf_lt_of_mem_parts ha'), ha.part ha'⟩
  have hcc : sizeOf c' ≤ sizeOf c ∧ Strict c' := by
    rcases List.mem_cons.mp hc' with rfl | hc'
    · exact ⟨Nat.le_refl _, hc⟩
    · exact ⟨Nat.le_of_lt (sizeOf_lt_of_mem_parts hc'), hc.part hc'⟩
  exact ih a' b' c' (by omega) hac.2 (hb.part hb') hcc.2 h h'

section Congruence

variable {n : Nat} (ih : TransBelow n)
include ih

theorem Supplies.trans {es fs gs : List (Field Ty)} {isOpen isOpen' isOpen'' : Bool}
    (hn : sizeOf (record es isOpen) + sizeOf (record fs isOpen') + sizeOf (record gs isOpen'')
      < n + 1)
    (he : Strict (record es isOpen)) (hf : Strict (record fs isOpen'))
    (hg : Strict (record gs isOpen'')) (h : Supplies es fs) (h' : Supplies fs gs) :
    Supplies es gs := by
  intro g hgm
  have hfg := h' g hgm
  cases hf? : findField? fs g.name with
  | none =>
      rw [hf?] at hfg
      exact absurd hfg (by simp [hg.field_required hgm])
  | some f =>
      rw [hf?] at hfg
      obtain ⟨hfm, hname⟩ := findField?_mem hf?
      have hef := h f hfm
      rw [hname] at hef
      cases he? : findField? es g.name with
      | none =>
          rw [he?] at hef
          exact absurd hef (by simp [hf.field_required hfm])
      | some e =>
          rw [he?] at hef
          have hem := (findField?_mem he?).1
          exact ih.apply hn he hf hg (List.mem_cons_of_mem _ (List.mem_map_of_mem hem))
            (List.mem_map_of_mem hfm) (List.mem_cons_of_mem _ (List.mem_map_of_mem hgm)) hef hfg

theorem Takes.trans {ps qs us : List (Param Ty)} {r r' r'' : Ty}
    (hn : sizeOf (function ps r) + sizeOf (function qs r') + sizeOf (function us r'') < n + 1)
    (hp : Strict (function ps r)) (hq : Strict (function qs r')) (hu : Strict (function us r''))
    (h : Takes ps qs) (h' : Takes qs us) : Takes ps us := by
  have part {vs : List (Param Ty)} {i : Nat} {v : Param Ty} {t : Ty} (hv : vs[i]? = some v) :
      v.type ∈ (function vs t).parts :=
    List.mem_append_left _ (List.mem_map_of_mem (List.mem_of_getElem? hv))
  intro i u hui
  obtain ⟨q, hqi, huq⟩ := h' i u hui
  obtain ⟨p, hpi, hqp⟩ := h i q hqi
  refine ⟨p, hpi, ?_⟩
  -- parameters change sides, so the third function comes first
  exact ih.apply (by omega) hu hq hp (List.mem_cons_of_mem _ (part hui)) (part hqi)
    (List.mem_cons_of_mem _ (part hpi)) huq hqp

/-- Transitivity with a solid type in the middle and on the right. -/
theorem trans_solid {a b c : Ty} (hn : sizeOf a + sizeOf b + sizeOf c < n + 1) (ha : Strict a)
    (hb : Strict b) (hc : Strict c) (hbs : b.isSolid = true) (hcs : c.isSolid = true)
    (hab : a.isSubtype b = true) (hbc : b.isSubtype c = true) : a.isSubtype c = true := by
  have onLeft : ∀ a' ∈ a.parts, a'.isSubtype b = true → a'.isSubtype c = true := by
    intro a' hm h
    have := sizeOf_lt_of_mem_parts hm
    exact ih a' b c (by omega) (ha.part hm) hb hc h hbc
  refine le_of_le_of_solid ha hbs hcs onLeft (fun has => ?_) hab
  refine isSubtype_iff_rule.mpr ?_
  cases isSubtype_iff_rule.mp hab with
  | bottom => exact .bottom
  | trusted hd => exact absurd hd (by simp [ha.not_dynamic])
  | primitive p => exact isSubtype_iff_rule.mp hbc
  | list h =>
      cases isSubtype_iff_rule.mp hbc with
      | list h' =>
          refine .list ?_
          exact ih.apply hn ha hb hc (by simp [parts]) (by simp [parts]) (by simp [parts]) h h'
      | _ => simp [isSolid, isDynamic] at *
  | record h =>
      cases isSubtype_iff_rule.mp hbc with
      | record h' => exact .record (Supplies.trans ih hn ha hb hc h h')
      | _ => simp [isSolid, isDynamic] at *
  | function hcount hp hr =>
      cases isSubtype_iff_rule.mp hbc with
      | function hcount' hp' hr' =>
          refine .function (Nat.le_trans hcount hcount') (Takes.trans ih hn ha hb hc hp hp') ?_
          exact ih.apply hn ha hb hc (by simp [parts]) (by simp [parts]) (by simp [parts]) hr hr'
      | _ => simp [isSolid, isDynamic] at *
  | prompt hi ho =>
      cases isSubtype_iff_rule.mp hbc with
      | prompt hi' ho' =>
          refine .prompt ?_ ?_
          · exact ih.apply (by omega) hc hb ha (by simp [parts]) (by simp [parts])
              (by simp [parts]) hi' hi
          · exact ih.apply hn ha hb hc (by simp [parts]) (by simp [parts]) (by simp [parts]) ho ho'
      | _ => simp [isSolid, isDynamic] at *
  | _ => simp [isSolid] at hbs has

/-- One step down: the rule for the second pair decides how the first is taken apart. -/
theorem transBelow_succ : TransBelow (n + 1) := by
  intro a b c hn ha hb hc hab hbc
  have toRight : ∀ c' ∈ c.parts, b.isSubtype c' = true → a.isSubtype c' = true := by
    intro c' hm h
    have := sizeOf_lt_of_mem_parts hm
    exact ih a b c' (by omega) ha hb (hc.part hm) hab h
  cases isSubtype_iff_rule.mp hbc with
  | top => exact isSubtype_iff_rule.mpr .top
  | bottom =>
      obtain rfl := eq_never_of_le_never ha hab
      exact isSubtype_iff_rule.mpr .bottom
  | trusted hd => exact absurd hd (by simp [hb.not_dynamic])
  | unchecked => exact absurd hc.not_dynamic (by simp [isDynamic])
  | constrained _ => exact absurd hc.not_dynamic (by simp [isDynamic])
  | @unions bs cs hbs =>
      cases isSubtype_iff_rule.mp hab with
      | bottom => exact isSubtype_iff_rule.mpr .bottom
      | trusted hd => exact absurd hd (by simp [ha.not_dynamic])
      | unions has =>
          refine isSubtype_iff_rule.mpr (.unions fun a' ha' => ?_)
          obtain ⟨b', hb', h⟩ := has a' ha'
          obtain ⟨c', hc', h'⟩ := hbs b' hb'
          exact ⟨c', hc', ih.apply hn ha hb hc (List.mem_cons_of_mem _ ha') hb'
            (List.mem_cons_of_mem _ hc') h h'⟩
      | toMember hu hm =>
          obtain ⟨b', hb', h⟩ := hm
          obtain ⟨c', hc', h'⟩ := hbs b' hb'
          exact isSubtype_iff_rule.mpr (.toMember hu ⟨c', hc', ih.apply hn ha hb hc
            List.mem_cons_self hb' (List.mem_cons_of_mem _ hc') h h'⟩)
      | ofMember hs _ => simp [isSolid] at hs
      | ofEach hs _ => simp [isSolid] at hs
  | toMember _ hm =>
      obtain ⟨c', hc', h⟩ := hm
      exact le_union_of_le ha hc' (toRight c' hc' h)
  | toEach hm =>
      exact isSubtype_iff_rule.mpr (.toEach fun c' hc' => toRight c' hc' (hm c' hc'))
  | ofMember hs hm =>
      obtain ⟨b', hb', h'⟩ := hm
      cases isSubtype_iff_rule.mp hab with
      | bottom => exact isSubtype_iff_rule.mpr .bottom
      | trusted hd => exact absurd hd (by simp [ha.not_dynamic])
      | toEach has =>
          exact ih.apply hn ha hb hc List.mem_cons_self hb' List.mem_cons_self (has b' hb') h'
      | ofMember hs _ => simp [isSolid] at hs
      | ofEach hs _ => simp [isSolid] at hs
  | ofEach hs hm =>
      cases isSubtype_iff_rule.mp hab with
      | bottom => exact isSubtype_iff_rule.mpr .bottom
      | trusted hd => exact absurd hd (by simp [ha.not_dynamic])
      | unions has =>
          refine isSubtype_iff_rule.mpr (.ofEach hs fun a' ha' => ?_)
          obtain ⟨b', hb', h⟩ := has a' ha'
          exact ih.apply hn ha hb hc (List.mem_cons_of_mem _ ha') hb' List.mem_cons_self h
            (hm b' hb')
      | toMember _ has =>
          obtain ⟨b', hb', h⟩ := has
          exact ih.apply hn ha hb hc List.mem_cons_self hb' List.mem_cons_self h (hm b' hb')
      | ofMember hs _ => simp [isSolid] at hs
      | ofEach hs _ => simp [isSolid] at hs
  | primitive | list | record | function | prompt =>
      exact trans_solid ih hn ha hb hc rfl rfl hab hbc

end Congruence

theorem transBelow : ∀ n : Nat, TransBelow n
  | 0 => fun _ _ _ hn => absurd hn (Nat.not_lt_zero _)
  | n + 1 => transBelow_succ (transBelow n)

/-- The subtype test is transitive on types in normal form that have neither a
dynamic component nor an optional field. -/
theorem isSubtype_trans {a b c : Ty}
    (na : a.inNormalForm = true) (nb : b.inNormalForm = true) (nc : c.inNormalForm = true)
    (sa : a.isStatic = true) (sb : b.isStatic = true) (sc : c.isStatic = true)
    (ra : a.requiresFields = true) (rb : b.requiresFields = true) (rc : c.requiresFields = true)
    (hab : a.isSubtype b = true) (hbc : b.isSubtype c = true) : a.isSubtype c = true :=
  transBelow _ a b c (Nat.lt_succ_self _) ⟨⟨sa, ra⟩, na⟩ ⟨⟨sb, rb⟩, nb⟩ ⟨⟨sc, rc⟩, nc⟩ hab hbc

/-- A function that takes more and returns less, through two unions: the one in
the middle is taken apart on either side. -/
theorem isSubtype_trans_function :
    let a := function [⟨"x", union [string, number], false⟩] number
    let b := union [null, function [⟨"y", string, false⟩] (union [number, null])]
    let c := union [function [⟨"z", string, false⟩] any, boolean, null]
    a.isSubtype b = true ∧ b.isSubtype c = true ∧ a.isSubtype c = true := by
  intro a b c
  have hab : a.isSubtype b = true := by
    simp [a, b, isSubtype, belowSome_eq, acceptsParams, requiredCount]
  have hbc : b.isSubtype c = true := by
    simp [b, c, isSubtype, eachBelowSome_eq, acceptsParams, requiredCount]
  have na : a.inNormalForm = true := by cbv
  have nb : b.inNormalForm = true := by cbv
  have nc : c.inNormalForm = true := by cbv
  exact ⟨hab, hbc, isSubtype_trans na nb nc rfl rfl rfl rfl rfl rfl hab hbc⟩

end TypedPrompt.Ty
