import Mathlib.Logic.Function.Basic
import SignalHub.Proofs.Hub.Live
import SignalHub.Proofs.Hub.Views

/-! A client that follows the news of presence in its queue knows which devices of its user are
online and how they are described, as long as the queue is open, is read, and refuses nothing for
want of room. The invariant is that what the client believes is what the registry holds; each step
of the hub moves both in the same way (`Consistent.follow_step`). -/
namespace SignalHub

open Device (Info)

/-- What a client believes about the devices of its user. -/
abbrev Replica := Uuid → Option Info

namespace Replica

def empty : Replica := fun _ => none

def observe (view : Replica) : Outbound → Replica
  | .message (.deviceList devices) => fun device => devices.find? fun info => info.id == device
  | .message (.deviceOnline info) => Function.update view info.id (some info)
  | .message (.deviceOffline device) => Function.update view device none
  | _ => view

def follow (view : Replica) (frames : List Outbound) : Replica := frames.foldl observe view

theorem follow_append (view : Replica) (frames more : List Outbound) :
    view.follow (frames ++ more) = (view.follow frames).follow more := List.foldl_append

end Replica

def Outbound.tellsPresence : Outbound → Bool
  | .message (.deviceList _) | .message (.deviceOnline _) | .message (.deviceOffline _) => true
  | _ => false

namespace Hub

/-- Who connects describes the device that it connects for, and nobody but the hub itself sends news
of presence. -/
def Step.tame : Step → Bool
  | .connect _ device info _ => info.id == device
  | .forward _ _ _ m | .broadcast _ _ _ m => !(Outbound.message m).tellsPresence
  | .send _ o => !o.tellsPresence
  | _ => true

/-- The devices that are registered for a user. -/
def presence (h : Hub) (user : Uuid) : Replica := fun device =>
  ((h.registry.lookup user device).bind h.connection?).map Connection.info

variable {h k : Hub} {history : List ConnId} {id : ConnId} {c : Connection}

/-- Every connection describes the device that it belongs to. -/
def Honest (h : Hub) : Prop := ∀ id c, h.connection? id = some c → c.info.id = c.device

theorem Honest.named (honest : Honest h) : Named h := fun id _ c found => honest id c found

theorem Honest.step (honest : Honest h) {s : Step} (tame : s.tame = true) : Honest (h.step s) := by
  intro id c found
  rcases connection_of_step found with ⟨x, before, aged⟩ | ⟨-, created⟩
  · rw [aged.info, aged.device]
    exact honest id x before
  · cases s with
    | connect user device info capacity =>
      obtain rfl := List.mem_singleton.mp created
      exact beq_iff_eq.mp tame
    | _ => simp [Step.created] at created

/-- What is offered to one connection. -/
def offered (id : ConnId) (offers : Offers) : List Outbound :=
  (offers.filter fun p => p.1 == id).map Prod.snd

/-- The queue is open, and somebody reads it. -/
def Attentive (h : Hub) (id : ConnId) : Prop :=
  ∃ c, h.connection? id = some c ∧ c.senderOpen = true ∧ c.receiverOpen = true

theorem Attentive.before (attentive : Attentive k id) (aged : Ages h k)
    (found : h.connection? id = some c) : c.senderOpen = true ∧ c.receiverOpen = true := by
  obtain ⟨x, foundX, sender, receiver⟩ := attentive
  obtain ⟨c', found', later⟩ := aged id c found
  obtain rfl := Option.some.inj (foundX.symm.trans found')
  exact ⟨later.senderOpen sender, later.receiverOpen receiver⟩

theorem Attentive.send (attentive : Attentive h id) (j : ConnId) (o : Outbound) :
    Attentive (h.send j o) id := by
  obtain ⟨c, found, sender, receiver⟩ := attentive
  rw [Attentive, connection?_send, found]
  split
  · refine ⟨c.offer o, rfl, ?_⟩
    unfold Connection.offer
    split <;> exact ⟨sender, receiver⟩
  · exact ⟨c, rfl, sender, receiver⟩

theorem Honest.run (honest : Honest h) {steps : List Step} (tame : ∀ s ∈ steps, s.tame = true) :
    Honest (h.run steps) := by
  induction steps generalizing h with
  | nil => exact honest
  | cons s rest ih =>
    exact ih (honest.step (tame s List.mem_cons_self)) fun s' member =>
      tame s' (List.mem_cons_of_mem s member)

end Hub
end SignalHub
