/-
# `Events.Delivery` — telling observers

An event goes to the observers that are registered when it is fired, one after
the other; what they do to the registry meanwhile shows with the next event.  An
observer that fails is not counted and disturbs nobody else.

What an observer does is one of a few reactions, so that a whole exchange can be
followed: it may accept, fail, try to change the payload (which is read only, so
it fails), take an observer of the event away or add one, or fire another event
at once.  Every call is noted before the observer reacts.
-/
import TypedPrompt.Events.Registry

namespace TypedPrompt

/-- What an observer does when it is told of an event. -/
inductive Reaction where
  | accept
  | fail
  /-- writes into the payload -/
  | overwrite
  | unsubscribe (observer : String)
  | subscribe (observer : String)
  | fire (event : String)
  deriving DecidableEq, Repr

/-- An observer was told of an event. -/
structure Call where
  observer : String
  event : String
  payload : Entries Value

/-- Observers with their reactions, who observes what, the subscriptions that were
made, and the calls so far. -/
structure Exchange where
  reactions : Entries Reaction
  registry : Registry String
  subscriptions : List (Subscription String)
  calls : List Call

/-- Acts for one observer after the other and counts those that do not fail. -/
def deliver {α σ : Type} (act : α → σ → Bool × σ) : List α → σ → Nat × σ
  | [], s => (0, s)
  | o :: os, s =>
      let (accepted, s) := act o s
      let (count, s) := deliver act os s
      (count + accepted.toNat, s)

namespace Exchange

/-- Observers that have subscribed to nothing. -/
def start (reactions : Entries Reaction) : Exchange := ⟨reactions, .empty, [], []⟩

/-- The observer of an identifier, if there is one. -/
def observer? (x : Exchange) (id : String) : Option String :=
  (x.reactions.find? id).map fun _ => id

/-- Subscribes an observer to the event that a value names, and keeps the
subscription. -/
def subscribe (x : Exchange) (name : Value) (id : String) : Except SubscribeError Exchange :=
  (x.registry.subscribe name (x.observer? id)).map fun (s, registry) =>
    { x with registry, subscriptions := x.subscriptions ++ [s] }

/-- Takes the first registration of an observer away. -/
def unsubscribe (x : Exchange) (event id : String) : Exchange :=
  { x with registry := x.registry.remove event id }

/-- Closes the subscription of a number, if there is one. -/
def close (x : Exchange) (number : Nat) : Option Exchange :=
  (x.subscriptions[number]?).map fun s =>
    { x with
      registry := x.registry.close s
      subscriptions := x.subscriptions.set number s.closed }

/-- Notes a call. -/
def noted (x : Exchange) (call : Call) : Exchange := { x with calls := x.calls ++ [call] }

/-- The reaction of an observer to an event, `fireNow` being how it fires another
one.  The answer says whether the observer did not fail. -/
def react (fireNow : String → Entries Value → Exchange → Exchange) (event : String)
    (payload : Entries Value) (id : String) (x : Exchange) : Bool × Exchange :=
  let x := x.noted ⟨id, event, payload⟩
  match x.reactions.find? id with
  | none => (false, x)
  | some .accept => (true, x)
  | some .fail => (false, x)
  | some .overwrite => (false, x)
  | some (.unsubscribe other) => (true, x.unsubscribe event other)
  | some (.subscribe other) =>
      match x.subscribe (.str event) other with
      | .ok x => (true, x)
      | .error _ => (false, x)
  | some (.fire other) => (true, fireNow other [("from", .str id)] x)

/-- Tells the observers of an event, with events inside one another to a depth of
at most `depth`; the answer is how many did not fail. -/
def fireWithin : Nat → String → Entries Value → Exchange → Nat × Exchange
  | 0, _, _, x => (0, x)
  | depth + 1, event, payload, x =>
      deliver (react (fun e p x => (fireWithin depth e p x).2) event payload)
        (x.registry.observersOf event) x

/-- Fires an event.  Events that do not fire themselves nest no deeper than there
are observers. -/
def fire (x : Exchange) (event : String) (payload : Entries Value) : Nat × Exchange :=
  fireWithin (x.reactions.length + 1) event payload x

/-- Fires an event once to an observer that is subscribed for as long as that takes,
and to those that are subscribed anyway. -/
def fireFor (x : Exchange) (name : Value) (id : String) :
    Except SubscribeError (Nat × Exchange) :=
  (x.registry.subscribe name (x.observer? id)).map fun (s, registry) =>
    let (count, x) := { x with registry }.fire s.event []
    (count, { x with registry := x.registry.close s })

/-- The same exchange with no calls noted. -/
def withoutCalls (x : Exchange) : Exchange := { x with calls := [] }

end Exchange

end TypedPrompt
