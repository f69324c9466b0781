/-
# `Typing.Session` — a checker that is kept

A session keeps the diagnostics of everything that was checked in it, and named
scopes in which expressions can be checked.  The frames of the scopes are
shared: a binding added to a frame is seen from every scope that has the frame
in its chain, also from those made before.  A frame is made inside frames that
exist already, so the chains are finite.
-/
import TypedPrompt.Typing.Check

namespace TypedPrompt

/-- A frame of a session, and the frame around it. -/
structure SharedFrame where
  bindings : Frame
  parent : Option Nat

/-- Frames by their numbers, names of scopes, and the diagnostics so far. -/
structure Session where
  frames : List SharedFrame
  names : Entries Nat
  log : List Diagnostic

namespace Session

/-- The name of the outermost scope. -/
def globals : String := "globals"

/-- The frame of the outermost scope. -/
def outermost : Nat := 0

/-- A session whose outermost scope has some names added. -/
def start (builtins : Entries Ty) : Session :=
  ⟨[⟨Entries.putAll Frame.standard builtins, none⟩], [(globals, outermost)], []⟩

/-- The chain of at most `bound` frames from one on. -/
def chain (frames : List SharedFrame) : Nat → Option Nat → Scope
  | bound + 1, some n =>
      match frames[n]? with
      | some frame => frame.bindings :: chain frames bound frame.parent
      | none => []
  | _, _ => []

/-- The scope that begins with a frame. -/
def scope (s : Session) (frame : Nat) : Scope := chain s.frames s.frames.length (some frame)

/-- The frame of a named scope. -/
def frame? (s : Session) (name : String) : Option Nat := s.names.find? name

/-- Adds a frame inside another one, or outside of all, and names its scope. -/
def addFrame (s : Session) (name : String) (parent : Option Nat) (bindings : Frame) : Session :=
  { s with
    frames := s.frames ++ [⟨bindings, parent⟩]
    names := s.names.put name s.frames.length }

/-- Binds a name in a frame. -/
def define (s : Session) (frame : Nat) (name : String) (t : Ty) : Session :=
  { s with frames := s.frames.modify frame fun f => { f with bindings := f.bindings.put name t } }

/-- Checks an expression in the scope that begins with a frame, and keeps the
diagnostics. -/
def check (s : Session) (frame : Nat) (e : Expr) : Judgement Ty × Session :=
  let judgement := Typing.check (s.scope frame) e
  (judgement, { s with log := s.log ++ judgement.log })

/-- Forgets the diagnostics. -/
def clear (s : Session) : Session := { s with log := [] }

end Session

end TypedPrompt
