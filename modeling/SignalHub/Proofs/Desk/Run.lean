import SignalHub.Hub.Desk
import SignalHub.Proofs.Hub.Live

/-! Callers, the runner and everybody else who uses the hub move in any order. To the hub such a run
is one of its own runs (`hub_play`): connections are registered and unregistered only by commands
that the runner applies, one at a time, and nothing else that callers or the runner do reaches the
hub. -/
namespace SignalHub

def Ask.conn : Ask → ConnId
  | .register conn | .unregister conn => conn

/-- The command that a call puts into the queue. -/
def Ask.command (call : Nat) : Ask → Command
  | .register conn => .register conn call
  | .unregister conn => .unregister conn

/-- What a command does to the hub. -/
def Command.deed : Command → Hub.Step
  | .register conn _ => .register conn
  | .unregister conn => .unregister conn

/-- The call waits for this command to be applied. -/
def Command.answers (call : Nat) : Command → Bool
  | .register _ n => n == call
  | .unregister _ => false

/-- Steps that are made without the desk. To tell the hub to stop is among them since its two halves,
the flag and the notice to the runner, may come apart. -/
def Hub.Step.bypasses : Hub.Step → Bool
  | .register _ | .unregister _ | .join _ | .leave _ => false
  | _ => true

namespace Hub

theorem stopping_step {h : Hub} (stopping : h.stopping = true) (s : Step) :
    (h.step s).stopping = true := by
  have offered (k : Hub) (offers : Offers) : (k.sendAll offers).stopping = k.stopping := by
    induction offers generalizing k with
    | nil => rfl
    | cons p rest ih => exact ih _
  have superseded (user device : Uuid) : (h.supersede user device).stopping = h.stopping := by
    unfold supersede
    split <;> rfl
  have registered (id) : (h.arrangeRegister id).stopping = h.stopping := by
    unfold arrangeRegister
    split
    · rfl
    · exact superseded _ _
  have unregistered (id) : (h.arrangeUnregister id).stopping = h.stopping := by
    unfold arrangeUnregister
    split
    · rfl
    split <;> rfl
  rw [(step_alike h s).stopping, offered]
  cases s with
  | register id => rw [arrange, registered, stopping]
  | unregister id => rw [arrange, unregistered, stopping]
  | join id =>
    rw [arrange]
    split
    · rw [registered, stopping]
    · exact stopping
  | leave id =>
    rw [arrange]
    split
    · rw [unregistered, stopping]
    · exact stopping
  | closeAll inside => exact (stopping_closeAll h inside).trans stopping
  | halt | release => rfl
  | connect | text | forward | broadcast | streamStart | streamEnd | send | close | receive
  | dropReceiver | finish => exact stopping

theorem stopping_run {h : Hub} (stopping : h.stopping = true) (steps : List Step) :
    (h.run steps).stopping = true := by
  induction steps generalizing h with
  | nil => exact stopping
  | cons s rest ih => exact ih (stopping_step stopping s)

end Hub

namespace Desk

/-- The runner is gone before it has ended. It pauses only where it looks for the next command, so it
does not go between taking a command and answering it. -/
def dropRunner (d : Desk) : Desk :=
  match d.runner with
  | .checking | .waiting => d.dismiss
  | _ => d

inductive Event where
  | move (m : Move)
  | direct (s : Hub.Step)
  | dropRunner
  deriving DecidableEq, Repr

/-- A call names a connection that there is, and only the desk registers. -/
def permits (d : Desk) : Event → Bool
  | .move (.beginCall ask) => (d.hub.connection? ask.conn).isSome
  | .direct s => s.bypasses
  | _ => true

def act (d : Desk) : Event → Desk
  | .move m => d.move m
  | .direct s => { d with hub := d.hub.step s }
  | .dropRunner => d.dropRunner

def event (d : Desk) (e : Event) : Desk := if d.permits e then d.act e else d

def play (d : Desk) (events : List Event) : Desk := events.foldl event d

/-- The command that an event puts into the queue. -/
def posts (d : Desk) : Event → List Command
  | .move (.post call) =>
    match d.calls[call]? with
    | some ⟨ask, .posting⟩ =>
      if d.runner ≠ .ended ∧ d.inbox.length < room then [ask.command call] else []
    | _ => []
  | _ => []

/-- The command that the runner has taken and not applied. -/
def hand (d : Desk) : List Command :=
  match d.runner with
  | .holding command => [command]
  | _ => []

/-- The command that an event applies. -/
def applies (d : Desk) : Event → List Command
  | .move .apply => d.hand
  | _ => []

/-- What an event does to the hub other than by a command. -/
def Event.bypass : Event → List Hub.Step
  | .move .halt => [.halt]
  | .move .closeAll => [.closeAll true]
  | .direct s => if s.bypasses then [s] else []
  | _ => []

/-- Everything that an event does to the hub. -/
def deeds (d : Desk) (e : Event) : List Hub.Step := (d.applies e).map Command.deed ++ e.bypass

/-- What the events of a run amount to, in order. -/
def along {α : Type} (f : Desk → Event → List α) : Desk → List Event → List α
  | _, [] => []
  | d, e :: rest => f d e ++ along f (d.event e) rest

variable {d : Desk} {e : Event}

theorem play_append (d : Desk) (first rest : List Event) :
    d.play (first ++ rest) = (d.play first).play rest := List.foldl_append

theorem along_append {α : Type} (f : Desk → Event → List α) (d : Desk) (first rest : List Event) :
    d.along f (first ++ rest) = d.along f first ++ (d.play first).along f rest := by
  induction first generalizing d with
  | nil => rfl
  | cons e first ih => simp only [List.cons_append, along, ih, List.append_assoc]; rfl

theorem hub_post (d : Desk) (call : Nat) : (d.post call).hub = d.hub := by
  unfold post
  split
  · split
    · rfl
    split
    · split <;> rfl
    · rfl
  · rfl

theorem hub_check (d : Desk) : d.check.hub = d.hub := by
  unfold check
  split
  · split <;> rfl
  · rfl

theorem hub_take (d : Desk) : d.take.hub = d.hub := by
  unfold take
  split <;> rfl

theorem hub_answer (d : Desk) : d.answer.hub = d.hub := by
  unfold answer
  split <;> rfl

theorem hub_dropRunner (d : Desk) : d.dropRunner.hub = d.hub := by
  unfold dropRunner
  split <;> rfl

theorem hub_apply (d : Desk) : d.apply.hub = d.hub.run (d.hand.map Command.deed) := by
  unfold apply hand
  cases d.runner with
  | holding command => cases command <;> rfl
  | checking | waiting | answering | ended => rfl

/-- An event does its deeds to the hub and nothing else. -/
theorem hub_event (d : Desk) (e : Event) : (d.event e).hub = d.hub.run (d.deeds e) := by
  unfold event
  split
  · rename_i permitted
    cases e with
    | move m =>
      cases m with
      | beginCall | halt | closeAll => rfl
      | post call => exact hub_post d call
      | check => exact hub_check d
      | take => exact hub_take d
      | apply =>
        have silent : (Event.move .apply).bypass = [] := rfl
        rw [deeds, silent, List.append_nil]
        exact hub_apply d
      | answer => exact hub_answer d
    | direct s =>
      have allowed : s.bypasses = true := permitted
      simp only [deeds, applies, Event.bypass, allowed]
      rfl
    | dropRunner => exact hub_dropRunner d
  · rename_i forbidden
    cases e with
    | move m =>
      cases m with
      | beginCall => rfl
      | post | check | take | apply | answer | halt | closeAll => exact absurd rfl forbidden
    | direct s =>
      have banned : ¬s.bypasses = true := forbidden
      simp only [deeds, applies, Event.bypass, banned]
      rfl
    | dropRunner => exact absurd rfl forbidden

/-- To the hub, a run of the desk is a run of its own. -/
theorem hub_play (d : Desk) (events : List Event) :
    (d.play events).hub = d.hub.run (d.along deeds events) := by
  induction events generalizing d with
  | nil => rfl
  | cons e rest ih =>
    change ((d.event e).play rest).hub = _
    rw [ih, hub_event, along, Hub.run_append]

end Desk
end SignalHub
