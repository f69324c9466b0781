/-
# `Proofs.Expr.Scopes` — the names bound at a node

`scopedWalk` is the walk of a tree with, at every node, the names that the lambdas and
lets around it bind there: a lambda in its body, not in the defaults of its parameters,
and a let in its body, not in the values that it binds.  The names that are left to what
is around the whole tree are its free names.
-/
import TypedPrompt.Expr.Walk

namespace TypedPrompt.Expr

mutual

/-- The nodes of a tree in the order of `walk`, each with the names bound at it. -/
def scopedWalk (bound : List String) : Expr → List (Expr × List String)
  | literal l v => [(literal l v, bound)]
  | identifier l name => [(identifier l name, bound)]
  | lambda l params body returns =>
      (lambda l params body returns, bound) ::
        (scopedParams bound params ++ scopedWalk (params.map Parameter.name ++ bound) body)
  | application l function arguments =>
      (application l function arguments, bound) ::
        (scopedWalk bound function ++ scopedAll bound arguments)
  | letIn l bindings body =>
      (letIn l bindings body, bound) ::
        (scopedBindings bound bindings ++ scopedWalk (bindings.map Binding.name ++ bound) body)
  | template l parts => (template l parts, bound) :: scopedParts bound parts
  | pipeline l stages => (pipeline l stages, bound) :: scopedAll bound stages
  | assertion l subject type => (assertion l subject type, bound) :: scopedWalk bound subject
  | bare _ => []

/-- The nodes of several trees. -/
def scopedAll (bound : List String) : List Expr → List (Expr × List String)
  | [] => []
  | e :: es => scopedWalk bound e ++ scopedAll bound es

/-- The nodes of the defaults of parameters. -/
def scopedParams (bound : List String) : List (Parameter Expr) → List (Expr × List String)
  | [] => []
  | ⟨_, _, none⟩ :: ps => scopedParams bound ps
  | ⟨_, _, some e⟩ :: ps => scopedWalk bound e ++ scopedParams bound ps

/-- The nodes of bound values. -/
def scopedBindings (bound : List String) : List (Binding Expr) → List (Expr × List String)
  | [] => []
  | ⟨_, _, e⟩ :: bs => scopedWalk bound e ++ scopedBindings bound bs

/-- The nodes embedded in the parts of a template. -/
def scopedParts (bound : List String) : List (Part Expr) → List (Expr × List String)
  | [] => []
  | .text _ :: ps => scopedParts bound ps
  | .embed e :: ps => scopedWalk bound e ++ scopedParts bound ps

end

/-- The name of an identifier that is not bound there. -/
def freeName? : Expr × List String → Option String
  | (identifier _ name, bound) => if name ∈ bound then none else some name
  | _ => none

/-- The free names among some nodes, in order. -/
def freeAmong (nodes : List (Expr × List String)) : List String := nodes.filterMap freeName?

/-- The free names of a tree, in the order of the walk. -/
def freeNames (e : Expr) : List String := freeAmong (scopedWalk [] e)

theorem freeAmong_append (ms ns : List (Expr × List String)) :
    freeAmong (ms ++ ns) = freeAmong ms ++ freeAmong ns :=
  List.filterMap_append

mutual

/-- The names apart, it is the walk of the tree. -/
theorem map_scopedWalk (bound : List String) :
    ∀ e : Expr, (scopedWalk bound e).map Prod.fst = walk e
  | literal .. | identifier .. | bare _ => rfl
  | lambda _ params body _ => by
      simp [scopedWalk, walk, map_scopedParams bound params, map_scopedWalk _ body]
  | application _ function arguments => by
      simp [scopedWalk, walk, map_scopedWalk bound function, map_scopedAll bound arguments]
  | letIn _ bindings body => by
      simp [scopedWalk, walk, map_scopedBindings bound bindings, map_scopedWalk _ body]
  | template _ parts => by simp [scopedWalk, walk, map_scopedParts bound parts]
  | pipeline _ stages => by simp [scopedWalk, walk, map_scopedAll bound stages]
  | assertion _ subject _ => by simp [scopedWalk, walk, map_scopedWalk bound subject]

theorem map_scopedAll (bound : List String) :
    ∀ es : List Expr, (scopedAll bound es).map Prod.fst = walkAll es
  | [] => rfl
  | e :: es => by simp [scopedAll, walkAll, map_scopedWalk bound e, map_scopedAll bound es]

theorem map_scopedParams (bound : List String) :
    ∀ ps : List (Parameter Expr), (scopedParams bound ps).map Prod.fst = walkParams ps
  | [] => rfl
  | ⟨_, _, none⟩ :: ps => by simp [scopedParams, walkParams, map_scopedParams bound ps]
  | ⟨_, _, some e⟩ :: ps => by
      simp [scopedParams, walkParams, map_scopedWalk bound e, map_scopedParams bound ps]

theorem map_scopedBindings (bound : List String) :
    ∀ bs : List (Binding Expr), (scopedBindings bound bs).map Prod.fst = walkBindings bs
  | [] => rfl
  | ⟨_, _, e⟩ :: bs => by
      simp [scopedBindings, walkBindings, map_scopedWalk bound e, map_scopedBindings bound bs]

theorem map_scopedParts (bound : List String) :
    ∀ ps : List (Part Expr), (scopedParts bound ps).map Prod.fst = walkParts ps
  | [] => rfl
  | .text _ :: ps => by simp [scopedParts, walkParts, map_scopedParts bound ps]
  | .embed e :: ps => by
      simp [scopedParts, walkParts, map_scopedWalk bound e, map_scopedParts bound ps]

end

end TypedPrompt.Expr
