/-
# `Proofs.Events.Closing` — whose registration a subscription takes away

A subscription knows its event and its observer, and so does the registry.  Neither knows
which of several registrations of one observer belongs to which subscription, and closing
takes the first one.

To say whose it is, the registrations are numbered: a `Ledger` is a board whose observers
carry the number of the subscription that they were added with.  It goes through the same
actions as the board without numbers, and the numbers are looked at by none of them, since
registrations are equal for a registry if their observers are.  A ledger tracks the board
(`Tracks`), and its numbers are right (`Numbered`); both are kept by an action.

Closing then leaves the registrations of all the other subscriptions exactly if the first
registration of the observer is the subscription's own (`close_keepsOthers_iff`).  It need
not be: an observer may have been added before, or its registration may have been removed
and another one made (`close_takes_another`).
-/
import Mathlib.Data.List.Nodup
import TypedPrompt.Proofs.Events.Actions

namespace TypedPrompt

variable {α : Type}

/-! ## Registrations -/

/-- An observer, and the number of the subscription that it was added with. -/
structure Registration (α : Type) where
  call : Nat
  observer : α

namespace Registration

variable [BEq α]

instance : BEq (Registration α) := ⟨fun r r' => r.observer == r'.observer⟩

@[simp] theorem beq_eq (r r' : Registration α) : (r == r') = (r.observer == r'.observer) := rfl

/-- The number of a registration that is to be removed is not looked at. -/
theorem map_erase (rs : List (Registration α)) (r : Registration α) :
    (rs.erase r).map observer = (rs.map observer).erase r.observer := by
  induction rs with
  | nil => rfl
  | cons r' rs ih =>
      rw [List.map_cons, List.erase_cons, List.erase_cons, beq_eq]
      split
      · rfl
      · rw [List.map_cons, ih]

/-- Where an observer is registered, its first registration goes. -/
theorem erase_of_find? {rs : List (Registration α)} {r first : Registration α}
    (h : rs.find? (fun r' => r'.observer == r.observer) = some first) :
    ∃ before behind, rs = before ++ first :: behind ∧ rs.erase r = before ++ behind := by
  obtain ⟨hfirst, before, behind, rfl, hbefore⟩ := List.find?_eq_some_iff_append.mp h
  refine ⟨before, behind, rfl, ?_⟩
  rw [List.erase_eq_eraseP', List.eraseP_append_right _ fun r' hr' => ?_, List.eraseP_cons_of_pos]
  · exact hfirst
  · simpa using hbefore r' hr'

theorem erase_of_find?_eq_none {rs : List (Registration α)} {r : Registration α}
    (h : rs.find? (fun r' => r'.observer == r.observer) = none) : rs.erase r = rs := by
  rw [List.erase_eq_eraseP']
  exact List.eraseP_of_forall_not fun r' hr' => List.find?_eq_none.mp h r' hr'

end Registration

/-! ## What is left -/

namespace Registry

variable [BEq α]

theorem observersOf_remove_sublist (r : Registry α) (event : String) (o : α) (other : String) :
    ((r.remove event o).observersOf other).Sublist (r.observersOf other) := by
  rw [observersOf_remove]
  split
  · next h => exact h ▸ List.erase_sublist
  · exact List.Sublist.refl _

theorem observersOf_close_sublist (r : Registry α) (s : Subscription α) (other : String) :
    ((r.close s).observersOf other).Sublist (r.observersOf other) := by
  unfold close
  split
  · exact List.Sublist.refl _
  · exact r.observersOf_remove_sublist s.event s.observer other

end Registry

/-- The observers that were added, with their events, in order. -/
def Board.made (b : Board α) : List (String × α) :=
  b.subscriptions.map fun s => (s.event, s.observer)

theorem Board.made_close [BEq α] (b : Board α) (number : Nat) :
    (b.act (.close number)).made = b.made := by
  unfold act
  dsimp only
  split
  · next s hs =>
      show (b.subscriptions.set number s.closed).map _ = b.subscriptions.map _
      refine List.ext_getElem? fun i => ?_
      rw [List.getElem?_map, List.getElem?_map, List.getElem?_set]
      split
      · next hi =>
          subst hi
          rw [if_pos (List.getElem?_eq_some_iff.mp hs).1, hs]
          rfl
      · rfl
  · rfl

/-- Who is left after closing is left in the same order. -/
theorem Board.observersOf_close_sublist [BEq α] (b : Board α) (number : Nat) (event : String) :
    ((b.act (.close number)).registry.observersOf event).Sublist
      (b.registry.observersOf event) := by
  unfold act
  dsimp only
  split
  · exact b.registry.observersOf_close_sublist _ event
  · exact List.Sublist.refl _

/-! ## Ledgers -/

/-- A board with numbered registrations. -/
abbrev Ledger (α : Type) := Board (Registration α)

/-- The action with a number for the observer. -/
def Action.numbered (call : Nat) : Action α → Action (Registration α)
  | .add event o => .add event ⟨call, o⟩
  | .remove event o => .remove event ⟨call, o⟩
  | .close number => .close number

namespace Ledger

/-- The subscription without its number. -/
def plain (s : Subscription (Registration α)) : Subscription α :=
  ⟨s.event, s.observer.observer, s.isClosed⟩

@[simp] theorem plain_event (s : Subscription (Registration α)) : (plain s).event = s.event := rfl

@[simp] theorem plain_observer (s : Subscription (Registration α)) :
    (plain s).observer = s.observer.observer := rfl

@[simp] theorem plain_isClosed (s : Subscription (Registration α)) :
    (plain s).isClosed = s.isClosed := rfl

/-- The ledger is the board, but for the numbers. -/
structure Tracks (l : Ledger α) (b : Board α) : Prop where
  registry : ∀ event,
    (l.registry.observersOf event).map Registration.observer = b.registry.observersOf event
  subscriptions : l.subscriptions.map plain = b.subscriptions

section Tracking

variable [BEq α]

/-- The ledger after an action: what is added gets the number of its subscription. -/
def record (l : Ledger α) (a : Action α) : Ledger α :=
  l.act (a.numbered l.subscriptions.length)

/-- The ledger of some actions. -/
def ofActions (actions : List (Action α)) : Ledger α := actions.foldl record .empty

variable {l : Ledger α} {b : Board α}

theorem Tracks.remove (h : Tracks l b) (event : String) (r : Registration α) (other : String) :
    ((l.registry.remove event r).observersOf other).map Registration.observer
      = (b.registry.remove event r.observer).observersOf other := by
  rw [Registry.observersOf_remove, Registry.observersOf_remove]
  split
  · rw [Registration.map_erase, h.registry]
  · exact h.registry other

theorem Tracks.close (h : Tracks l b) (s : Subscription (Registration α)) (other : String) :
    ((l.registry.close s).observersOf other).map Registration.observer
      = (b.registry.close (plain s)).observersOf other := by
  unfold Registry.close
  rw [plain_isClosed]
  split
  · exact h.registry other
  · exact h.remove s.event s.observer other

theorem Tracks.record (h : Tracks l b) (a : Action α) : Tracks (l.record a) (b.act a) := by
  cases a with
  | add event o =>
      refine ⟨fun other => ?_, ?_⟩
      · show ((l.registry.add event ⟨_, o⟩).observersOf other).map _
          = (b.registry.add event o).observersOf other
        rw [Registry.observersOf_add, Registry.observersOf_add]
        split
        · rw [List.map_append, h.registry, List.map_singleton]
        · exact h.registry other
      · show (l.subscriptions ++ [_]).map plain = b.subscriptions ++ [_]
        rw [List.map_append, h.subscriptions]
        rfl
  | remove event o => exact ⟨fun other => h.remove event _ other, h.subscriptions⟩
  | close number =>
      show Tracks (l.act (.close number)) (b.act (.close number))
      have hfound : b.subscriptions[number]? = l.subscriptions[number]?.map plain := by
        rw [← h.subscriptions, List.getElem?_map]
      unfold Board.act
      dsimp only
      rw [hfound]
      cases l.subscriptions[number]? with
      | none => exact h
      | some s =>
          refine ⟨fun other => h.close s other, ?_⟩
          show (l.subscriptions.set number s.closed).map plain = b.subscriptions.set number _
          rw [List.map_set, h.subscriptions]
          rfl

omit [BEq α] in
/-- A subscription of the board is one of the ledger, but for the number. -/
theorem Tracks.exists_subscription (h : Tracks l b) {n : Nat} {s : Subscription α}
    (hs : b.subscriptions[n]? = some s) : ∃ s', l.subscriptions[n]? = some s' ∧ plain s' = s := by
  rw [← h.subscriptions, List.getElem?_map, Option.map_eq_some_iff] at hs
  exact hs

/-- The ledger of some actions tracks the board after them. -/
theorem tracks_ofActions (actions : List (Action α)) :
    Tracks (ofActions actions) (Board.empty.run actions) := by
  have hrun : ∀ (l : Ledger α) (b : Board α), Tracks l b →
      Tracks (actions.foldl record l) (b.run actions) := by
    induction actions with
    | nil => exact fun l b h => h
    | cons a actions ih => exact fun l b h => ih _ _ (h.record a)
  exact hrun _ _ ⟨fun _ => rfl, rfl⟩

end Tracking

/-! ## Numbers -/

section Numbers

variable {l : Ledger α}

/-- Every registration has the number of its subscription, and is there once at most. -/
structure Numbered (l : Ledger α) : Prop where
  call : ∀ n event (r : Registration α), l.made[n]? = some (event, r) → r.call = n
  made : ∀ event, ∀ r ∈ l.registry.observersOf event, l.made[r.call]? = some (event, r)
  once : ∀ event, (l.registry.observersOf event).Nodup

theorem Numbered.empty : Numbered (.empty : Ledger α) where
  call n event r hr := by cases hr
  made event r hr := by cases hr
  once event := List.nodup_nil

/-- Nothing is made, and no more is registered. -/
theorem Numbered.mono {l' : Ledger α} (h : Numbered l) (hmade : l'.made = l.made)
    (hless : ∀ event, (l'.registry.observersOf event).Sublist (l.registry.observersOf event)) :
    Numbered l' where
  call n event r hr := h.call n event r (hmade ▸ hr)
  made event r hr := by
    rw [hmade]
    exact h.made event r ((hless event).subset hr)
  once event := (h.once event).sublist (hless event)

theorem Numbered.lt_length (h : Numbered l) {event : String} {r : Registration α}
    (hr : r ∈ l.registry.observersOf event) : r.call < l.made.length :=
  (List.getElem?_eq_some_iff.mp (h.made event r hr)).1

/-- A registration with the number is the one that the subscription made. -/
theorem Numbered.eq_of_call {n : Nat} {s : Subscription (Registration α)}
    (h : Numbered l) (hs : l.subscriptions[n]? = some s)
    {event : String} {r : Registration α} (hr : r ∈ l.registry.observersOf event)
    (hcall : r.call = n) :
    event = s.event ∧ r = s.observer := by
  have hmade : l.made[n]? = some (s.event, s.observer) := by
    rw [Board.made, List.getElem?_map, hs]
    rfl
  have hr := h.made event r hr
  rw [hcall, hmade] at hr
  cases hr
  exact ⟨rfl, rfl⟩

/-- What is added has the next number, which no registration has had. -/
theorem Numbered.add [BEq α] (h : Numbered l) (event : String) (o : α) :
    Numbered (l.act (.add event ⟨l.made.length, o⟩)) := by
  have hmade : (l.act (.add event ⟨l.made.length, o⟩)).made
      = l.made ++ [(event, ⟨l.made.length, o⟩)] := List.map_append
  have hobservers : ∀ other, (l.act (.add event ⟨l.made.length, o⟩)).registry.observersOf other
      = if event = other then l.registry.observersOf event ++ [⟨l.made.length, o⟩]
        else l.registry.observersOf other :=
    l.registry.observersOf_add event ⟨l.made.length, o⟩
  constructor
  · intro n event' r hr
    rw [hmade, List.getElem?_append] at hr
    split at hr
    · exact h.call n event' r hr
    · next hlt =>
        obtain ⟨hn, hnew⟩ := List.getElem?_eq_some_iff.mp hr
        rw [List.getElem_singleton] at hnew
        cases hnew
        show l.made.length = n
        rw [List.length_singleton] at hn
        omega
  · intro other r hr
    rw [hmade]
    rw [hobservers] at hr
    have hold : ∀ event', r ∈ l.registry.observersOf event' →
        (l.made ++ [(event, ⟨l.made.length, o⟩)])[r.call]? = some (event', r) := by
      intro event' hr
      rw [List.getElem?_append_left (h.lt_length hr)]
      exact h.made event' r hr
    split at hr
    · next heq =>
        subst heq
        rcases List.mem_append.mp hr with hr | hr
        · exact hold event hr
        · rw [List.mem_singleton.mp hr, List.getElem?_concat_length]
    · exact hold other hr
  · intro other
    rw [hobservers]
    split
    · refine List.nodup_append.mpr ⟨h.once event, by simp, ?_⟩
      rintro r hr _ hnew rfl
      have hlt := h.lt_length hr
      rw [List.mem_singleton.mp hnew] at hlt
      exact absurd hlt (Nat.lt_irrefl _)
    · exact h.once other

theorem Numbered.record [BEq α] (h : Numbered l) (a : Action α) : Numbered (l.record a) := by
  cases a with
  | add event o =>
      have hlength : l.made.length = l.subscriptions.length := List.length_map _
      show Numbered (l.act (.add event ⟨l.subscriptions.length, o⟩))
      rw [← hlength]
      exact h.add event o
  | remove event o =>
      exact h.mono rfl fun other => l.registry.observersOf_remove_sublist event _ other
  | close number =>
      exact h.mono (Board.made_close l number) fun other =>
        Board.observersOf_close_sublist l number other

theorem numbered_ofActions [BEq α] (actions : List (Action α)) : Numbered (ofActions actions) := by
  have hrun : ∀ (l : Ledger α), Numbered l → Numbered (actions.foldl record l) := by
    induction actions with
    | nil => exact fun l h => h
    | cons a actions ih => exact fun l h => ih _ (h.record a)
  exact hrun _ .empty

end Numbers

/-! ## Closing -/

section Closing

variable [BEq α] {l : Ledger α} {n : Nat} {s : Subscription (Registration α)}

/-- Of the registrations that other subscriptions made, the second ledger has the same as the
first, in the same order. -/
def KeepsOthers (n : Nat) (l l' : Ledger α) : Prop :=
  ∀ event, (l'.registry.observersOf event).filter (fun r => r.call != n)
    = (l.registry.observersOf event).filter fun r => r.call != n

/-- If the observer is registered for the event, its first registration is the one of the
subscription. -/
def OwnComesFirst (n : Nat) (s : Subscription α) (l : Ledger α) : Prop :=
  ∀ r, (l.registry.observersOf s.event).find? (fun r => r.observer == s.observer) = some r →
    r.call = n

theorem observersOf_act_close (hs : l.subscriptions[n]? = some s) (event : String) :
    (l.act (.close n)).registry.observersOf event
      = if s.isClosed = false ∧ s.event = event
        then (l.registry.observersOf s.event).erase s.observer
        else l.registry.observersOf event := by
  unfold Board.act
  dsimp only
  rw [hs]
  dsimp only [Registry.close]
  cases s.isClosed with
  | true => simp
  | false => simp [Registry.observersOf_remove]

theorem keepsOthers_of_isClosed (hs : l.subscriptions[n]? = some s) (hclosed : s.isClosed = true) :
    KeepsOthers n l (l.act (.close n)) := by
  intro event
  rw [observersOf_act_close hs, if_neg (by simp [hclosed])]

/-- Where its own registration is the first or there is none, nothing else is taken away. -/
theorem keepsOthers_of_ownComesFirst (hs : l.subscriptions[n]? = some s)
    (hown : OwnComesFirst n (plain s) l) : KeepsOthers n l (l.act (.close n)) := by
  intro event
  rw [observersOf_act_close hs]
  split
  · next h =>
      obtain ⟨-, rfl⟩ := h
      cases hfirst : (l.registry.observersOf s.event).find?
          fun r => r.observer == s.observer.observer with
      | none => rw [Registration.erase_of_find?_eq_none hfirst]
      | some first =>
          obtain ⟨before, behind, hall, hleft⟩ := Registration.erase_of_find? hfirst
          have hcall : first.call = n := hown first hfirst
          rw [hleft, hall, List.filter_append, List.filter_append,
            List.filter_cons_of_neg (by simp [hcall])]
  · rfl

/-- The first registration of the observer is taken away, and so must be the own one. -/
theorem ownComesFirst_of_keepsOthers (hs : l.subscriptions[n]? = some s)
    (hopen : s.isClosed = false) (hkeeps : KeepsOthers n l (l.act (.close n))) :
    OwnComesFirst n (plain s) l := by
  intro first hfirst
  rw [plain_event, plain_observer] at hfirst
  obtain ⟨before, behind, hall, hleft⟩ := Registration.erase_of_find? hfirst
  have hothers := hkeeps s.event
  rw [observersOf_act_close hs, if_pos ⟨hopen, rfl⟩, hleft, hall, List.filter_append,
    List.filter_append] at hothers
  refine Decidable.byContradiction fun hne => ?_
  rw [List.filter_cons_of_pos (by simpa using hne)] at hothers
  have hlength := congrArg List.length hothers
  simp at hlength

/-- Where its own registration is the first or there is none, nothing else is taken away and
that one is. -/
theorem observersOf_close_of_ownComesFirst [ReflBEq α] (hl : Numbered l)
    (hs : l.subscriptions[n]? = some s) (hopen : s.isClosed = false)
    (hown : OwnComesFirst n (plain s) l) (event : String) :
    (l.act (.close n)).registry.observersOf event
      = (l.registry.observersOf event).filter fun r => r.call != n := by
  rw [← keepsOthers_of_ownComesFirst hs hown event]
  refine (List.filter_eq_self.mpr fun r hr => ?_).symm
  rw [bne_iff_ne]
  intro hcall
  rw [observersOf_act_close hs] at hr
  split at hr
  · next h =>
      obtain ⟨-, rfl⟩ := h
      -- it is the first one of its observer, and that is gone
      obtain ⟨-, rfl⟩ := hl.eq_of_call hs (List.mem_of_mem_erase hr) hcall
      cases hfirst : (l.registry.observersOf s.event).find?
          fun r => r.observer == s.observer.observer with
      | none =>
          have hnot := List.find?_eq_none.mp hfirst s.observer (List.mem_of_mem_erase hr)
          exact hnot BEq.rfl
      | some first =>
          obtain ⟨before, behind, hall, hleft⟩ := Registration.erase_of_find? hfirst
          have hmem : first ∈ l.registry.observersOf s.event := List.mem_of_find?_eq_some hfirst
          obtain ⟨-, rfl⟩ := hl.eq_of_call hs hmem (hown first hfirst)
          have honce := hl.once s.event
          rw [hall] at honce
          rw [hleft] at hr
          exact (List.nodup_middle.mp honce).notMem hr
  · next hother =>
      obtain ⟨rfl, -⟩ := hl.eq_of_call hs hr hcall
      exact hother ⟨hopen, rfl⟩

end Closing

end Ledger

/-! ## Exchanges -/

namespace Exchange

/-- The numbered registrations of an exchange after some commands. -/
def ledger (reactions : Entries Reaction) (commands : List Command) : Ledger String :=
  .ofActions ((start reactions).allActions commands)

variable (reactions : Entries Reaction) (commands : List Command)

theorem tracks_ledger :
    (ledger reactions commands).Tracks ((start reactions).obeyAll commands).board := by
  rw [board_obeyAll]
  exact Ledger.tracks_ofActions _

theorem ledger_close (n : Nat) :
    ledger reactions (commands ++ [.close n]) = (ledger reactions commands).act (.close n) := by
  unfold ledger Ledger.ofActions
  rw [allActions_append, List.foldl_append]
  rfl

/-- However an exchange has gone on, closing a subscription leaves the registrations of all
the others, in their order, exactly if the subscription is closed already or the first
registration of its observer for its event, if there is one, is its own.  Then nothing or
just that one is taken away; and what is left is always in order. -/
theorem close_keepsOthers_iff {n : Nat} {s : Subscription String}
    (hs : ((start reactions).obeyAll commands).subscriptions[n]? = some s) :
    (ledger reactions commands).Tracks ((start reactions).obeyAll commands).board
      ∧ (ledger reactions (commands ++ [.close n])).Tracks
          ((start reactions).obeyAll (commands ++ [.close n])).board
      ∧ (Ledger.KeepsOthers n (ledger reactions commands)
            (ledger reactions (commands ++ [.close n]))
          ↔ s.isClosed = true ∨ Ledger.OwnComesFirst n s (ledger reactions commands))
      ∧ (s.isClosed = false → Ledger.OwnComesFirst n s (ledger reactions commands) → ∀ event,
          (ledger reactions (commands ++ [.close n])).registry.observersOf event
            = ((ledger reactions commands).registry.observersOf event).filter fun r => r.call != n)
      ∧ ∀ event,
          ((ledger reactions (commands ++ [.close n])).registry.observersOf event).Sublist
            ((ledger reactions commands).registry.observersOf event) := by
  have htracks := tracks_ledger reactions commands
  have hnumbered : (ledger reactions commands).Numbered := Ledger.numbered_ofActions _
  obtain ⟨s, hmade, rfl⟩ := htracks.exists_subscription hs
  refine ⟨htracks, tracks_ledger reactions _, ?_, ?_, ?_⟩
  · rw [ledger_close]
    constructor
    · intro hkeeps
      cases hopen : s.isClosed with
      | true => exact .inl hopen
      | false => exact .inr (Ledger.ownComesFirst_of_keepsOthers hmade hopen hkeeps)
    · rintro (hclosed | hown)
      · exact Ledger.keepsOthers_of_isClosed hmade hclosed
      · exact Ledger.keepsOthers_of_ownComesFirst hmade hown
  · intro hopen hown event
    rw [ledger_close]
    exact Ledger.observersOf_close_of_ownComesFirst hnumbered hmade hopen hown event
  · intro event
    rw [ledger_close]
    exact Board.observersOf_close_sublist _ n event

/-- An observer is added, removed, and added again. -/
def readded : List Command := [.add (.str "e") "f", .remove "e" "f", .add (.str "e") "f"]

/-- The first registration has been removed: closing the first subscription takes the one that
the second subscription made. -/
theorem close_takes_another :
    ((start [("f", .accept)]).obeyAll readded).subscriptions
        = [⟨"e", "f", false⟩, ⟨"e", "f", false⟩]
      ∧ ¬ Ledger.KeepsOthers 0 (ledger [("f", .accept)] readded)
          (ledger [("f", .accept)] (readded ++ [.close 0])) := by
  refine ⟨rfl, fun hkeeps => ?_⟩
  have hnone : ([] : List (Registration String)) = [⟨1, "f"⟩] := hkeeps "e"
  cases hnone

/-- An observer is added twice, and another one that removes it when the event is fired. -/
def overtaken : List Command :=
  [.add (.str "e") "f", .add (.str "e") "g", .add (.str "e") "f", .fire "e" []]

/-- The first registration has been removed: closing the last subscription takes its own. -/
theorem close_keepsOthers_overtaken :
    ((start [("f", .accept), ("g", .unsubscribe "f")]).obeyAll overtaken).subscriptions[2]?
        = some ⟨"e", "f", false⟩
      ∧ Ledger.KeepsOthers 2 (ledger [("f", .accept), ("g", .unsubscribe "f")] overtaken)
          (ledger [("f", .accept), ("g", .unsubscribe "f")] (overtaken ++ [.close 2])) := by
  have hs : ((start [("f", .accept), ("g", .unsubscribe "f")]).obeyAll overtaken).subscriptions[2]?
      = some ⟨"e", "f", false⟩ := rfl
  refine ⟨hs, (close_keepsOthers_iff _ _ hs).2.2.1.mpr (.inr fun r hr => ?_)⟩
  have hfirst : some ⟨2, "f"⟩ = some r := hr
  cases hfirst
  rfl

end Exchange

end TypedPrompt
