/-
# `Typing.Scope` — what names mean

A scope is a chain of frames, the innermost first.  A name means what the first
frame that binds it says.  Each frame keeps its bindings under their names, so
binding a name again in the same frame replaces its type.
-/
import TypedPrompt.Ty.Basic
import TypedPrompt.Value.Entries

namespace TypedPrompt

/-- The bindings of one frame. -/
abbrev Frame := Entries Ty

/-- Frames inside one another, the innermost first. -/
abbrev Scope := List Frame

namespace Scope

/-- The type of a name. -/
def lookup? : Scope → String → Option Ty
  | [], _ => none
  | frame :: outer, name =>
      match Entries.find? frame name with
      | some t => some t
      | none => lookup? outer name

/-- Whether a name means something. -/
def binds (scope : Scope) (name : String) : Bool := (lookup? scope name).isSome

end Scope

/-- The names of the primitive types that can stand as values. -/
def Frame.standard : Frame := [("string", .string), ("number", .number), ("boolean", .boolean)]

end TypedPrompt
