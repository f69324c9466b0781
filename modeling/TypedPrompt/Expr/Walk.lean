/-
# `Expr.Walk` — the nodes of a tree

`children` lists the nodes directly below a node, in the order of the source:
defaults of parameters before the body, the function before its arguments, bound
values before the body.  `walk` lists a whole tree, every node before what is
below it; `walk_eq` says that it is the node followed by the walks of its
children.
-/
import TypedPrompt.Expr.Basic

namespace TypedPrompt.Expr

/-- The embedded expression of a part. -/
def embedded? : Part Expr → Option Expr
  | .text _ => none
  | .embed e => some e

/-- The expressions directly inside, in the order of the source. -/
def operands : Expr → List Expr
  | literal .. | identifier .. | bare _ => []
  | lambda _ params body _ => params.filterMap Parameter.default ++ [body]
  | application _ function arguments => function :: arguments
  | letIn _ bindings body => bindings.map Binding.value ++ [body]
  | template _ parts => parts.filterMap embedded?
  | pipeline _ stages => stages
  | assertion _ subject _ => [subject]

/-- The nodes directly below a node. -/
def children (e : Expr) : List Expr := e.operands.filter isNode

mutual

/-- All nodes of a tree, each before those below it. -/
def walk : Expr → List Expr
  | literal l v => [literal l v]
  | identifier l name => [identifier l name]
  | lambda l params body returns =>
      lambda l params body returns :: (walkParams params ++ walk body)
  | application l function arguments =>
      application l function arguments :: (walk function ++ walkAll arguments)
  | letIn l bindings body => letIn l bindings body :: (walkBindings bindings ++ walk body)
  | template l parts => template l parts :: walkParts parts
  | pipeline l stages => pipeline l stages :: walkAll stages
  | assertion l subject type => assertion l subject type :: walk subject
  | bare _ => []

/-- The nodes of several trees. -/
def walkAll : List Expr → List Expr
  | [] => []
  | e :: es => walk e ++ walkAll es

/-- The nodes of the defaults of parameters. -/
def walkParams : List (Parameter Expr) → List Expr
  | [] => []
  | ⟨_, _, none⟩ :: ps => walkParams ps
  | ⟨_, _, some e⟩ :: ps => walk e ++ walkParams ps

/-- The nodes of bound values. -/
def walkBindings : List (Binding Expr) → List Expr
  | [] => []
  | ⟨_, _, e⟩ :: bs => walk e ++ walkBindings bs

/-- The nodes embedded in the parts of a template. -/
def walkParts : List (Part Expr) → List Expr
  | [] => []
  | .text _ :: ps => walkParts ps
  | .embed e :: ps => walk e ++ walkParts ps

end

theorem walkAll_eq (es : List Expr) : walkAll es = es.flatMap walk := by
  induction es <;> simp_all [walkAll]

theorem walkParams_eq (ps : List (Parameter Expr)) :
    walkParams ps = (ps.filterMap Parameter.default).flatMap walk := by
  induction ps with
  | nil => rfl
  | cons p ps ih =>
      obtain ⟨name, type, default⟩ := p
      cases default <;> simp [walkParams, ih]

theorem walkBindings_eq (bs : List (Binding Expr)) :
    walkBindings bs = (bs.map Binding.value).flatMap walk := by
  induction bs with
  | nil => rfl
  | cons b bs ih => simp [walkBindings, ih]

theorem walkParts_eq (ps : List (Part Expr)) :
    walkParts ps = (ps.filterMap embedded?).flatMap walk := by
  induction ps with
  | nil => rfl
  | cons p ps ih => cases p <;> simp [walkParts, embedded?, List.filterMap_cons, ih]

/-- What is no node contributes nothing to a walk. -/
theorem flatMap_walk_filter (es : List Expr) :
    (es.filter isNode).flatMap walk = es.flatMap walk := by
  induction es with
  | nil => rfl
  | cons e es ih => cases e <;> simp [List.filter_cons, isNode, walk, ih]

/-- A walk is the node, followed by the walks of its children. -/
theorem walk_eq (e : Expr) (h : e.isNode = true) : walk e = e :: e.children.flatMap walk := by
  cases e <;>
    simp_all [walk, children, operands, flatMap_walk_filter, walkAll_eq, walkParams_eq,
      walkBindings_eq, walkParts_eq, isNode]

end TypedPrompt.Expr
