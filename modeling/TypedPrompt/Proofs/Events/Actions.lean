/-
# `Proofs.Events.Actions` — what an exchange does to its registry

However an exchange goes on, its registry and its subscriptions change in three ways
only: an observer is added, an observer is removed, a subscription is closed.  These are
the actions on a `Board`.

A command comes to a list of actions (`Exchange.actions`).  For an event that is fired the
list is made from the calls that were noted: every call stands for what the observer does
then, and an observer that fires another event does nothing itself, since the calls of that
event are noted, too.  `board_obeyAll` says that the board after any commands is the board
after their actions.
-/
import TypedPrompt.Events.Delivery

namespace TypedPrompt

/-! ## Boards -/

/-- What is done to a registry; a subscription is closed by its number. -/
inductive Action (α : Type) where
  | add (event : String) (observer : α)
  | remove (event : String) (observer : α)
  | close (number : Nat)
  deriving DecidableEq, Repr

/-- A registry, and the subscriptions that were made, in order. -/
structure Board (α : Type) where
  registry : Registry α
  subscriptions : List (Subscription α)

namespace Board

variable {α : Type} [BEq α]

def empty : Board α := ⟨.empty, []⟩

/-- The board after an action. -/
def act (b : Board α) : Action α → Board α
  | .add event o => ⟨b.registry.add event o, b.subscriptions ++ [⟨event, o, false⟩]⟩
  | .remove event o => { b with registry := b.registry.remove event o }
  | .close number =>
      match b.subscriptions[number]? with
      | some s => ⟨b.registry.close s, b.subscriptions.set number s.closed⟩
      | none => b

/-- The board after some actions. -/
def run (b : Board α) (actions : List (Action α)) : Board α := actions.foldl act b

theorem run_append (b : Board α) (as bs : List (Action α)) :
    b.run (as ++ bs) = (b.run as).run bs := List.foldl_append

end Board

/-! ## Observers at work -/

/-- The action of a subscription that is asked for; one that is refused is none. -/
def additions (reactions : Entries Reaction) (name : Value) (id : String) : List (Action String) :=
  match eventName? name, reactions.find? id with
  | some event, some _ => [.add event id]
  | _, _ => []

/-- What an observer does to the registry when it is told of an event. -/
def Reaction.actions (reactions : Entries Reaction) (event : String) :
    Reaction → List (Action String)
  | .unsubscribe other => [.remove event other]
  | .subscribe other => additions reactions (.str event) other
  | _ => []

/-- What is done to the registry on a call. -/
def Call.actions (reactions : Entries Reaction) (call : Call) : List (Action String) :=
  match reactions.find? call.observer with
  | some reaction => reaction.actions reactions call.event
  | none => []

namespace Exchange

variable {x y z : Exchange}

/-- Who observes what, and the subscriptions. -/
def board (x : Exchange) : Board String := ⟨x.registry, x.subscriptions⟩

/-- The same exchange with another board. -/
def withBoard (x : Exchange) (b : Board String) : Exchange :=
  { x with registry := b.registry, subscriptions := b.subscriptions }

@[simp] theorem board_withBoard (x : Exchange) (b : Board String) : (x.withBoard b).board = b := rfl

@[simp] theorem noted_reactions (x : Exchange) (call : Call) :
    (x.noted call).reactions = x.reactions := rfl

theorem subscribe_eq (x : Exchange) (name : Value) (id : String) :
    (∃ e, x.subscribe name id = .error e ∧ additions x.reactions name id = [])
      ∨ x.subscribe name id
          = .ok (x.withBoard (x.board.run (additions x.reactions name id))) := by
  unfold subscribe observer? Registry.subscribe additions
  cases eventName? name with
  | none => exact .inl ⟨.badName, rfl, rfl⟩
  | some event =>
      cases x.reactions.find? id with
      | none => exact .inl ⟨.notCallable, rfl, rfl⟩
      | some reaction => exact .inr rfl

/-! ### Calls -/

/-- The second exchange comes from the first by what observers do on the calls that have
been noted in between. -/
structure Leads (x y : Exchange) : Prop where
  reactions : y.reactions = x.reactions
  board : ∃ calls, y.calls = x.calls ++ calls
    ∧ y.board = x.board.run (calls.flatMap (Call.actions x.reactions))

theorem Leads.refl (x : Exchange) : Leads x x :=
  ⟨rfl, [], (List.append_nil _).symm, rfl⟩

theorem Leads.trans (hxy : Leads x y) (hyz : Leads y z) : Leads x z := by
  obtain ⟨hreactions, calls, hcalls, hboard⟩ := hxy
  obtain ⟨hreactions', calls', hcalls', hboard'⟩ := hyz
  refine ⟨hreactions'.trans hreactions, calls ++ calls', ?_, ?_⟩
  · rw [hcalls', hcalls, List.append_assoc]
  · rw [hboard', hboard, hreactions, List.flatMap_append, Board.run_append]

/-- An observer is called and acts. -/
theorem Leads.noted (x : Exchange) (call : Call) (actions : List (Action String))
    (h : call.actions x.reactions = actions) :
    Leads x ((x.noted call).withBoard (x.board.run actions)) :=
  ⟨rfl, [call], rfl, by rw [List.flatMap_singleton, h]; rfl⟩

theorem leads_react {fireNow : String → Entries Value → Exchange → Exchange}
    (hfire : ∀ event payload x, Leads x (fireNow event payload x)) (event : String)
    (payload : Entries Value) (id : String) (x : Exchange) :
    Leads x (react fireNow event payload id x).2 := by
  have hnoted := Leads.noted x ⟨id, event, payload⟩
  unfold react
  dsimp only [noted_reactions]
  cases hreaction : x.reactions.find? id with
  | none => exact hnoted [] (by rw [Call.actions, hreaction])
  | some reaction =>
      have hactions : Call.actions x.reactions ⟨id, event, payload⟩
          = reaction.actions x.reactions event := by rw [Call.actions, hreaction]
      cases reaction with
      | accept | fail | overwrite | unsubscribe other => exact hnoted _ hactions
      | subscribe other =>
          dsimp only
          rcases subscribe_eq (x.noted ⟨id, event, payload⟩) (.str event) other with
            ⟨e, hrefused, hnone⟩ | hadded
          · rw [hrefused]
            exact hnoted [] (hactions.trans hnone)
          · rw [hadded]
            exact hnoted _ hactions
      | fire other =>
          -- the calls of the other event are noted behind this one
          have hcalled : Leads x (x.noted ⟨id, event, payload⟩) := hnoted [] hactions
          exact hcalled.trans (hfire other _ _)

theorem leads_deliver {α : Type} {act : α → Exchange → Bool × Exchange}
    (hact : ∀ a x, Leads x (act a x).2) (observers : List α) (x : Exchange) :
    Leads x (deliver act observers x).2 := by
  induction observers generalizing x with
  | nil => exact .refl x
  | cons o os ih => exact (hact o x).trans (ih _)

theorem leads_fireWithin (depth : Nat) (event : String) (payload : Entries Value) (x : Exchange) :
    Leads x (fireWithin depth event payload x).2 := by
  induction depth generalizing event payload x with
  | zero => exact .refl x
  | succ depth ih =>
      exact leads_deliver (leads_react ih event payload) _ x

theorem leads_fire (x : Exchange) (event : String) (payload : Entries Value) :
    Leads x (x.fire event payload).2 := leads_fireWithin _ _ _ _

/-- The calls that have been noted since determine the board. -/
theorem Leads.board_eq (h : Leads x y) :
    y.board = x.board.run
      ((y.calls.drop x.calls.length).flatMap (Call.actions x.reactions)) := by
  obtain ⟨calls, hcalls, hboard⟩ := h.board
  rw [hboard, hcalls, List.drop_left]

end Exchange

/-! ## Commands -/

/-- What the users of a registry do. -/
inductive Command where
  | add (name : Value) (id : String)
  | remove (event id : String)
  | close (number : Nat)
  | fire (event : String) (payload : Entries Value)

namespace Exchange

/-- The exchange after a command; one that is refused leaves everything as it is. -/
def obey (x : Exchange) : Command → Exchange
  | .add name id =>
      match x.subscribe name id with
      | .ok y => y
      | .error _ => x
  | .remove event id => x.unsubscribe event id
  | .close number => (x.close number).getD x
  | .fire event payload => (x.fire event payload).2

/-- The exchange after some commands. -/
def obeyAll (x : Exchange) (commands : List Command) : Exchange := commands.foldl obey x

/-- What a command comes to. -/
def actions (x : Exchange) : Command → List (Action String)
  | .add name id => additions x.reactions name id
  | .remove event id => [.remove event id]
  | .close number => [.close number]
  | .fire event payload =>
      ((x.fire event payload).2.calls.drop x.calls.length).flatMap (Call.actions x.reactions)

/-- What some commands come to. -/
def allActions (x : Exchange) : List Command → List (Action String)
  | [] => []
  | c :: cs => x.actions c ++ (x.obey c).allActions cs

theorem allActions_append (x : Exchange) (cs ds : List Command) :
    x.allActions (cs ++ ds) = x.allActions cs ++ (x.obeyAll cs).allActions ds := by
  induction cs generalizing x with
  | nil => rfl
  | cons c cs ih =>
      rw [List.cons_append, allActions, allActions, ih, List.append_assoc]
      rfl

theorem board_close (x : Exchange) (number : Nat) :
    ((x.close number).getD x).board = x.board.act (.close number) := by
  cases hs : x.subscriptions[number]? with
  | none => simp [close, Board.act, board, hs]
  | some s => simp [close, Board.act, board, hs]

theorem board_obey (x : Exchange) (c : Command) : (x.obey c).board = x.board.run (x.actions c) := by
  cases c with
  | add name id =>
      rcases subscribe_eq x name id with ⟨e, hrefused, hnone⟩ | hadded
      · rw [obey, hrefused, actions, hnone]
        rfl
      · rw [obey, hadded, actions, board_withBoard]
  | remove event id => rfl
  | close number => exact board_close x number
  | fire event payload => exact (leads_fire x event payload).board_eq

/-- The board after some commands is the board after what they come to. -/
theorem board_obeyAll (x : Exchange) (commands : List Command) :
    (x.obeyAll commands).board = x.board.run (x.allActions commands) := by
  induction commands generalizing x with
  | nil => rfl
  | cons c cs ih =>
      rw [allActions, Board.run_append, ← board_obey, ← ih]
      rfl

end Exchange

end TypedPrompt
