/-
# `Configuration.Limits` — limits that are configured

The limits stand under one key of a document, each under a key of its own; one
that is left out has its standard value.  The limits are worked out when they
are first asked for and then kept, so that a document that changes, or another
one that is chosen, has no effect until they are forgotten.  Where the document is
at fault the standard limits are in force, and nothing fails on that account, unless
a scalar in it has no value: then there are no limits, and none are kept.
-/
import TypedPrompt.Configuration.Document
import TypedPrompt.Limits

namespace TypedPrompt

namespace Limits

/-- The limit under a key, if it is there, and a default otherwise.  The complaint
about a value shows the value, which must not hold an integer too long to be shown. -/
def limitAt (entries : Yaml.Mapping) (key : String) (default : Int) : Except ConfigFailure Int :=
  match entries.named? key with
  | none => .ok default
  | some d =>
      match positive? d with
      | some n => .ok n
      | none =>
          if d.isWritable then .error (.excused (.badLimit key d)) else .error (.scalar .oversized)
where
  /-- A positive integer. -/
  positive? : Yaml.Data → Option Int
  | .scalar (.int n) => if 0 < n then some n else none
  | _ => none

/-- The limits of the entries of their section. -/
def ofEntries (entries : Yaml.Mapping) : Except ConfigFailure Limits := do
  let interpolation ← limitAt entries "max_interpolation_depth" standard.interpolation
  let value ← limitAt entries "max_value_depth" standard.value
  let nesting ← limitAt entries "max_nesting_depth" standard.nesting
  .ok ⟨interpolation, value, nesting⟩

/-- The limits of a document. -/
def ofDocument (root : Yaml.Mapping) : Except ConfigFailure Limits :=
  match root.named? "limits" with
  | none => .ok standard
  | some (.scalar .null) => .ok standard
  | some (.mapping entries) => ofEntries entries
  | some _ => .error (.excused .limitsNotMapping)

end Limits

/-- The documents that there are, the one that is chosen, and the limits in force
once they are known. -/
structure Workspace where
  documents : Documents
  chosen : Option String
  limits : Option Limits

namespace Workspace

/-- No documents. -/
def empty : Workspace := ⟨[], none, none⟩

/-- Adds a document, or gives it another text. -/
def write (w : Workspace) (path text : String) : Workspace :=
  { w with documents := w.documents.put path text }

/-- Removes a document. -/
def delete (w : Workspace) (path : String) : Workspace :=
  { w with documents := w.documents.filter fun entry => entry.1 ≠ path }

/-- Chooses the document that holds the limits; an empty path is no choice. -/
def choose (w : Workspace) (path : Option String) : Workspace :=
  { w with chosen := path.filter fun p => !p.isEmpty }

/-- Forgets the limits in force. -/
def forget (w : Workspace) : Workspace := { w with limits := none }

/-- The limits of a document, or else of the chosen one, or else the standard ones. -/
def readLimits (w : Workspace) (path : Option String) : Except ConfigFailure Limits :=
  match path.or w.chosen with
  | some p => (w.documents.load p).bind Limits.ofDocument
  | none => .ok .standard

/-- The limits in force. -/
def currentLimits (w : Workspace) : Except Yaml.ScalarFault Limits :=
  match w.limits with
  | some l => .ok l
  | none => ConfigFailure.orElse (w.readLimits none) fun _ => .standard

/-- The workspace that keeps the limits in force, once there are any. -/
def settled (w : Workspace) : Workspace :=
  match w.currentLimits with
  | .ok l => { w with limits := some l }
  | .error _ => w

/-- Once the limits are settled, no change of a document or of the choice alters them. -/
theorem currentLimits_settled (w : Workspace) (l : Limits) (path : Option String)
    (name text : String) (h : w.currentLimits = .ok l) :
    ((w.settled.write name text).choose path).currentLimits = .ok l := by
  have kept : w.settled.limits = some l := by simp [settled, h]
  simp [currentLimits, write, choose, kept]

end Workspace

end TypedPrompt
