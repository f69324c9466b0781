/-
# `Expr.Basic` — expressions

The tree of an expression: constants, names, lambdas with optional annotations
and defaults, applications to several arguments, lets with several bindings,
templates of text and embedded expressions, pipelines, and type assertions.
Every node knows the place of its first token.

A tree can also be put together by hand, and then a parameter may stand where an
expression is expected (`bare`).  No rule gives it a type, and it counts neither
as a node of the tree nor as a child.
-/
import TypedPrompt.Source.Position
import TypedPrompt.Ty.Basic
import TypedPrompt.Value.Basic

namespace TypedPrompt

/-- A parameter of a lambda. -/
structure Parameter (ε : Type) where
  name : String
  type : Option Ty
  default : Option ε

/-- A binding of a let. -/
structure Binding (ε : Type) where
  name : String
  type : Option Ty
  value : ε

/-- A part of a template. -/
inductive Part (ε : Type) where
  | text (s : String)
  | embed (e : ε)

/-- Expressions. -/
inductive Expr where
  | literal (loc : Location) (value : Value)
  | identifier (loc : Location) (name : String)
  | lambda (loc : Location) (params : List (Parameter Expr)) (body : Expr) (returns : Option Ty)
  | application (loc : Location) (function : Expr) (arguments : List Expr)
  | letIn (loc : Location) (bindings : List (Binding Expr)) (body : Expr)
  | template (loc : Location) (parts : List (Part Expr))
  | pipeline (loc : Location) (stages : List Expr)
  | assertion (loc : Location) (subject : Expr) (type : Ty)
  | bare (name : String)

namespace Expr

/-- The place of the first token. -/
def loc : Expr → Location
  | literal l _ | identifier l _ | lambda l _ _ _ | application l _ _ | letIn l _ _
  | template l _ | pipeline l _ | assertion l _ _ => l
  | bare _ => Location.unknown

/-- What the kind of a node is called. -/
def kindName : Expr → String
  | literal .. => "Literal"
  | identifier .. => "Identifier"
  | lambda .. => "Lambda"
  | application .. => "Application"
  | letIn .. => "Let"
  | template .. => "Template"
  | pipeline .. => "Pipeline"
  | assertion .. => "TypeAnnotation"
  | bare _ => "Parameter"

/-- Whether it is a node of the tree. -/
def isNode : Expr → Bool
  | bare _ => false
  | _ => true

end Expr

end TypedPrompt
