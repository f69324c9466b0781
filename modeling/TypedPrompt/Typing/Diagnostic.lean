/-
# `Typing.Diagnostic` — what is wrong with a tree

A complaint says what is wrong and holds the types and names that it speaks of;
its code and its wording are functions of it.  A diagnostic is a complaint with
the place of the node that it is about.

A fault is something else: the tree itself is not one that the rules cover, and
then it has no type.
-/
import TypedPrompt.Source.Position
import TypedPrompt.Ty.Display
import TypedPrompt.Value.Display

namespace TypedPrompt

/-- The kinds of complaints. -/
inductive Code where
  | undefinedIdentifier
  | typeMismatch
  | bindingMismatch
  | argumentMismatch
  | notCallable
  | tooFewArguments
  | tooManyArguments
  | pipelineStage
  deriving DecidableEq, Repr

/-- What a kind of complaints is called. -/
def Code.name : Code → String
  | undefinedIdentifier => "undefined_identifier"
  | typeMismatch => "annotation_mismatch"
  | bindingMismatch => "binding_mismatch"
  | argumentMismatch => "argument_mismatch"
  | notCallable => "not_callable"
  | tooFewArguments => "too_few_arguments"
  | tooManyArguments => "too_many_arguments"
  | pipelineStage => "pipeline_stage"

/-- What is wrong at a node. -/
inductive Complaint where
  | undefined (name : String)
  | assertion (expected actual : Ty)
  | body (expected actual : Ty)
  | default (name : String) (expected actual : Ty)
  | binding (name : String) (expected actual : Ty)
  | argument (number : Nat) (name : String) (expected actual : Ty)
  | notCallable (actual : Ty)
  | tooFew (least count : Nat)
  | tooMany (most count : Nat)
  | stageNotFunction (number : Nat) (actual : Ty)
  | stageInput (number : Nat) (expected actual : Ty)

namespace Complaint

/-- The kind of a complaint. -/
def code : Complaint → Code
  | undefined _ => .undefinedIdentifier
  | assertion .. => .typeMismatch
  | body .. => .typeMismatch
  | default .. => .bindingMismatch
  | binding .. => .bindingMismatch
  | argument .. => .argumentMismatch
  | notCallable _ => .notCallable
  | tooFew .. => .tooFewArguments
  | tooMany .. => .tooManyArguments
  | stageNotFunction .. => .pipelineStage
  | stageInput .. => .pipelineStage

/-- What was expected and what was found. -/
def mismatch (expected actual : Ty) : String :=
  "expected " ++ expected.display ++ ", got " ++ actual.display

/-- The words for a complaint. -/
def text : Complaint → String
  | undefined name => "Undefined identifier '" ++ name ++ "'"
  | assertion expected actual => "Type annotation mismatch: " ++ mismatch expected actual
  | body expected actual => "Lambda body: " ++ mismatch expected actual
  | default name expected actual =>
      "Default for parameter '" ++ name ++ "': " ++ mismatch expected actual
  | binding name expected actual => "Binding '" ++ name ++ "': " ++ mismatch expected actual
  | argument number name expected actual =>
      "Argument " ++ toString number ++ " ('" ++ name ++ "'): " ++ mismatch expected actual
  | notCallable actual => "Cannot apply non-function type " ++ actual.display
  | tooFew least count =>
      "Too few arguments: expected at least " ++ toString least ++ ", got " ++ toString count
  | tooMany most count =>
      "Too many arguments: expected at most " ++ toString most ++ ", got " ++ toString count
  | stageNotFunction number actual =>
      "Pipeline stage " ++ toString number ++ " must be a function of at least one argument, got "
        ++ actual.display
  | stageInput number expected actual =>
      "Pipeline stage " ++ toString number ++ " expects " ++ expected.display ++ ", got "
        ++ actual.display

end Complaint

/-- A complaint about the node at a place. -/
structure Diagnostic where
  complaint : Complaint
  loc : Location

/-- A diagnostic with its place in front. -/
def Diagnostic.text (d : Diagnostic) : String := d.loc.label d.complaint.text

/-- Why a tree has no type. -/
inductive TreeFault where
  /-- the rules do not cover nodes of this kind -/
  | unknownNode (kind : String)
  /-- a constant that is an array or an object -/
  | unsupportedLiteral (value : Value)
  /-- a pipeline without stages -/
  | emptyPipeline

/-- The words for a fault. -/
def TreeFault.text : TreeFault → String
  | unknownNode kind => "Unknown node kind: " ++ kind
  | unsupportedLiteral value => "Unsupported literal value: " ++ value.display
  | emptyPipeline => "tuple index out of range"

end TypedPrompt
