/-
# `Typing.Source` — checking a source

A source is read and checked in one step.  It either cannot be read, or there is
a report: the type, and the diagnostics in order.  What observers are told about
a finished check is a function of the report.
-/
import TypedPrompt.Reading.Source
import TypedPrompt.Typing.Check

namespace TypedPrompt

/-- The outcome of checking a source. -/
structure Report where
  tree : Expr
  type : Ty
  diagnostics : List Diagnostic

/-- Why a source has no report. -/
inductive CheckFailure where
  | unreadable (failure : Failure)
  | untyped (fault : TreeFault)

/-- The outermost scope, with some names added. -/
def Scope.withBuiltins (builtins : Entries Ty) : Scope :=
  [Entries.putAll Frame.standard builtins]

/-- Reads and checks a source. -/
def checkSource (settings : Reading.Settings) (builtins : Entries Ty) (source : String) :
    Except CheckFailure Report :=
  match Expr.read settings Context.top source with
  | .error failure => .error (.unreadable failure)
  | .ok tree =>
      let judgement := Typing.check (Scope.withBuiltins builtins) tree
      match judgement.answer with
      | .error fault => .error (.untyped fault)
      | .ok type => .ok ⟨tree, type, judgement.log⟩

namespace Report

/-- Nothing is wrong. -/
def isOk (r : Report) : Bool := r.diagnostics.isEmpty

/-- The event that a check is finished. -/
def eventName : String := "typecheck.completed"

/-- What observers are told about a finished check of a file. -/
def payload (file : String) (r : Report) : Entries Value :=
  [("filename", .str file),
   ("type", .str r.type.display),
   ("error_count", .int r.diagnostics.length),
   ("codes", .arr (r.diagnostics.map fun d => .str d.complaint.code.name))]

end Report

end TypedPrompt
