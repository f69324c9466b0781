/-
# `Events.Registry` — who observes what

A registry holds, for each event by its name, the observers in the order in
which they subscribed; one that subscribes again is there twice.  A subscription
is what a subscriber gets back: closing it takes one registration of its
observer away, the first, and closing it again does nothing.
-/
import TypedPrompt.Value.Basic

namespace TypedPrompt

/-- Observers by the names of events. -/
structure Registry (α : Type) where
  table : Entries (List α)

/-- What a subscriber gets back. -/
structure Subscription (α : Type) where
  event : String
  observer : α
  isClosed : Bool
  deriving DecidableEq, Repr

/-- Why there is no subscription. -/
inductive SubscribeError where
  /-- the event has no name -/
  | badName
  /-- what should be called cannot be -/
  | notCallable
  deriving DecidableEq, Repr

/-- The words for an error. -/
def SubscribeError.message : SubscribeError → String
  | badName => "hook name must be a non-empty string"
  | notCallable => "hook callback must be callable"

/-- The name that a value gives to an event: a text that is not empty. -/
def eventName? : Value → Option String
  | .str s => if s.isEmpty then none else some s
  | _ => none

namespace Registry

variable {α : Type}

/-- Nobody observes anything. -/
def empty : Registry α := ⟨[]⟩

/-- The observers of an event, in order. -/
def observersOf (r : Registry α) (event : String) : List α := (r.table.find? event).getD []

/-- Adds an observer behind the others. -/
def add (r : Registry α) (event : String) (observer : α) : Registry α :=
  ⟨r.table.put event (r.observersOf event ++ [observer])⟩

/-- Takes the first registration of an observer away. -/
def remove [BEq α] (r : Registry α) (event : String) (observer : α) : Registry α :=
  ⟨r.table.put event ((r.observersOf event).erase observer)⟩

/-- The observer is registered. -/
def has [BEq α] (r : Registry α) (event : String) (observer : α) : Bool :=
  (r.observersOf event).contains observer

/-- The events that are observed, by name, with their observers. -/
def observed (r : Registry α) : Entries (List α) :=
  (r.table.filter fun entry => !entry.2.isEmpty).mergeSort fun a b => decide (a.1 ≤ b.1)

/-- Subscribes an observer, if there is one, to the event that a value names. -/
def subscribe (r : Registry α) (name : Value) (observer : Option α) :
    Except SubscribeError (Subscription α × Registry α) :=
  match eventName? name, observer with
  | none, _ => .error .badName
  | some _, none => .error .notCallable
  | some event, some o => .ok (⟨event, o, false⟩, r.add event o)

/-- Closes a subscription. -/
def close [BEq α] (r : Registry α) (s : Subscription α) : Registry α :=
  if s.isClosed then r else r.remove s.event s.observer

/-- An added observer comes last, and no other event is affected. -/
theorem observersOf_add (r : Registry α) (event : String) (o : α) (other : String) :
    (r.add event o).observersOf other
      = if event = other then r.observersOf event ++ [o] else r.observersOf other := by
  by_cases h : event = other <;> simp [add, observersOf, Entries.find?_put, h]

/-- A removed observer loses its first registration, and no other event is affected. -/
theorem observersOf_remove [BEq α] (r : Registry α) (event : String) (o : α) (other : String) :
    (r.remove event o).observersOf other
      = if event = other then (r.observersOf event).erase o else r.observersOf other := by
  by_cases h : event = other <;> simp [remove, observersOf, Entries.find?_put, h]

end Registry

/-- The subscription after it was closed. -/
def Subscription.closed {α : Type} (s : Subscription α) : Subscription α :=
  { s with isClosed := true }

end TypedPrompt
