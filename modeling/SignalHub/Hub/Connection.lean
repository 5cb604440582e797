import SignalHub.Message.Basic

/-! A connection belongs to one device of one user. It has a bounded queue of what is to be written
to the device. Its phase goes from connecting to closed and never back; the queue takes messages
only while its sender is open, and keeps those it has taken when the sender is closed. -/
namespace SignalHub

inductive Phase where
  | connecting | registered | active | closing | closed
  deriving DecidableEq, Repr

namespace Phase

def name : Phase → String
  | .connecting => "Connecting"
  | .registered => "Registered"
  | .active => "Active"
  | .closing => "Closing"
  | .closed => "Closed"

def isClosing : Phase → Bool
  | .closing | .closed => true
  | _ => false

end Phase

/-- What a queue holds: a message of the hub, or a text that somebody wants written as it is. -/
inductive Outbound where
  | message (m : Message)
  | text (raw : String)
  deriving DecidableEq, Repr

def Outbound.frame : Outbound → String
  | .message m => m.encode
  | .text raw => raw

/-- What became of something offered to a queue. -/
inductive Offer where
  | queued | full | closed
  deriving DecidableEq, Repr

def Offer.name : Offer → String
  | .queued => "Queued"
  | .full => "Full"
  | .closed => "Closed"

structure Connection where
  user : Uuid
  device : Uuid
  info : Device.Info
  phase : Phase
  senderOpen : Bool
  receiverOpen : Bool
  capacity : Nat
  queue : List Outbound
  deriving DecidableEq, Repr

namespace Connection

/-- A queue has room for one message at least. -/
def new (user device : Uuid) (info : Device.Info) (capacity : Nat) : Connection :=
  ⟨user, device, info, .connecting, true, true, max capacity 1, []⟩

/-- What would become of something offered now. -/
def verdict (c : Connection) : Offer :=
  if !c.senderOpen || !c.receiverOpen then .closed
  else if c.queue.length < c.capacity then .queued
  else .full

def offer (c : Connection) (o : Outbound) : Connection :=
  match c.verdict with
  | .queued => { c with queue := c.queue ++ [o] }
  | _ => c

def markRegistered (c : Connection) : Connection :=
  if c.phase = .connecting then { c with phase := .registered } else c

def markActive (c : Connection) : Connection :=
  if c.phase = .registered then { c with phase := .active } else c

/-- The queue takes nothing more. What it holds can still be written. -/
def close (c : Connection) : Connection :=
  if c.senderOpen then
    { c with senderOpen := false, phase := if c.phase = .closed then .closed else .closing }
  else c

def markClosed (c : Connection) : Connection := { c with senderOpen := false, phase := .closed }

/-- Nobody reads the queue any more. It takes nothing more, and what it holds is never written. -/
def dropReceiver (c : Connection) : Connection := { c with receiverOpen := false }

/-- The first thing in the queue, taken out of it. -/
def take? (c : Connection) : Option (Outbound × Connection) :=
  match c.queue with
  | [] => none
  | o :: rest => some (o, { c with queue := rest })

/-- How a connection shows itself, but for its random identifier. -/
def shown (c : Connection) : String :=
  "Connection \x7b conn_id: <conn>, user_id: " ++ c.user.text ++ ", device_id: " ++ c.device.text ++
    ", state: " ++ c.phase.name ++ " \x7d"

end Connection
end SignalHub
