/-
# `Proofs.Expr.Occurrence` — where an expression stands in a tree

`Occurs f above e` says that `f` stands somewhere in the tree `e`, inside the nodes
`above`, the outermost first.  The walk of a tree lists what occurs in it
(`mem_walk_iff`), without saying inside of what.  `annotations` lists the types that
are written at a node.
-/
import TypedPrompt.Expr.Walk

namespace TypedPrompt.Expr

/-- The first expression stands in the second one, inside some nodes, outermost first. -/
inductive Occurs : Expr → List Expr → Expr → Prop
  | here (e : Expr) : Occurs e [] e
  | under {e f g : Expr} {above : List Expr} :
      f ∈ e.operands → Occurs g above f → Occurs g (e :: above) e

theorem occurs_of_mem_operands {e f : Expr} (h : f ∈ e.operands) : Occurs f [e] e :=
  .under h (.here f)

/-- The types written at a node. -/
def annotations : Expr → List Ty
  | lambda _ params _ returns => params.filterMap Parameter.type ++ returns.toList
  | letIn _ bindings _ => bindings.filterMap Binding.type
  | assertion _ _ type => [type]
  | _ => []

theorem sizeOf_lt_of_mem_operands {e f : Expr} (h : f ∈ e.operands) : sizeOf f < sizeOf e := by
  cases e with
  | literal | identifier | bare => exact absurd h List.not_mem_nil
  | lambda l params body returns =>
      rcases List.mem_append.mp h with h | h
      · obtain ⟨⟨name, type, default⟩, hp, hd⟩ := List.mem_filterMap.mp h
        obtain rfl : default = some f := hd
        have hlt := List.sizeOf_lt_of_mem hp
        rw [Parameter.mk.sizeOf_spec, Option.some.sizeOf_spec] at hlt
        rw [lambda.sizeOf_spec]
        omega
      · obtain rfl := List.mem_singleton.mp h
        rw [lambda.sizeOf_spec]
        omega
  | application l function arguments =>
      rcases List.mem_cons.mp h with rfl | h
      · rw [application.sizeOf_spec]
        omega
      · have := List.sizeOf_lt_of_mem h
        rw [application.sizeOf_spec]
        omega
  | letIn l bindings body =>
      rcases List.mem_append.mp h with h | h
      · obtain ⟨⟨name, type, value⟩, hb, hv⟩ := List.mem_map.mp h
        obtain rfl : value = f := hv
        have hlt := List.sizeOf_lt_of_mem hb
        rw [Binding.mk.sizeOf_spec] at hlt
        rw [letIn.sizeOf_spec]
        omega
      · obtain rfl := List.mem_singleton.mp h
        rw [letIn.sizeOf_spec]
        omega
  | template l parts =>
      obtain ⟨part, hp, he⟩ := List.mem_filterMap.mp h
      have hlt := List.sizeOf_lt_of_mem hp
      cases part with
      | text s => cases he
      | embed g =>
          cases he
          rw [Part.embed.sizeOf_spec] at hlt
          rw [template.sizeOf_spec]
          omega
  | pipeline l stages =>
      have := List.sizeOf_lt_of_mem (show f ∈ stages from h)
      rw [pipeline.sizeOf_spec]
      omega
  | assertion l subject type =>
      obtain rfl := List.mem_singleton.mp h
      rw [assertion.sizeOf_spec]
      omega

theorem walk_of_operand {e f g : Expr} (hf : f ∈ e.operands) (h : g ∈ walk f) : g ∈ walk e := by
  have he : e.isNode = true := by
    cases e with
    | bare => exact absurd hf List.not_mem_nil
    | _ => rfl
  rw [walk_eq e he, children, flatMap_walk_filter]
  exact List.mem_cons_of_mem _ (List.mem_flatMap_of_mem hf h)

/-- The walk of a tree lists the nodes that occur in it. -/
theorem mem_walk_iff {e g : Expr} :
    g ∈ walk e ↔ g.isNode = true ∧ ∃ above, Occurs g above e := by
  constructor
  · induction hn : sizeOf e using Nat.strongRecOn generalizing e with
    | ind n ih =>
        subst hn
        intro h
        cases he : e.isNode with
        | false =>
            cases e with
            | bare => exact absurd h List.not_mem_nil
            | _ => cases he
        | true =>
            rw [walk_eq e he, children, flatMap_walk_filter] at h
            rcases List.mem_cons.mp h with rfl | h
            · exact ⟨he, [], .here g⟩
            · obtain ⟨f, hf, hg⟩ := List.mem_flatMap.mp h
              obtain ⟨hnode, above, ho⟩ := ih _ (sizeOf_lt_of_mem_operands hf) rfl hg
              exact ⟨hnode, e :: above, .under hf ho⟩
  · rintro ⟨hnode, above, ho⟩
    induction ho with
    | here e =>
        rw [walk_eq e hnode]
        exact List.mem_cons_self
    | under hf _ ih => exact walk_of_operand hf (ih hnode)

end TypedPrompt.Expr
