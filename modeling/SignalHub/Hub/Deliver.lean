import SignalHub.Hub.Basic
import SignalHub.Message.Inbound

/-! The hub offers messages to queues and never waits. A message that finds a full queue is dropped
and counted; one that finds a closed queue is dropped. -/
namespace SignalHub.Hub

/-- Offers something to a connection, on nobody's account. -/
def send (h : Hub) (id : ConnId) (o : Outbound) : Hub := h.update id (·.offer o)

def verdict (h : Hub) (id : ConnId) : Offer :=
  match h.connection? id with
  | some c => c.verdict
  | none => .closed

def countDrop (h : Hub) : Hub :=
  { h with counters := { h.counters with dropped := h.counters.dropped + 1 } }

/-- Offers a message of the hub; tells whether it was queued. -/
def deliver (h : Hub) (id : ConnId) (m : Message) : Hub × Bool :=
  match h.verdict id with
  | .queued => (h.send id (.message m), true)
  | .full => (h.countDrop, false)
  | .closed => (h, false)

/-- Offers a message to each connection; tells how many took it. -/
def deliverAll (h : Hub) : List ConnId → Message → Hub × Nat
  | [], _ => (h, 0)
  | id :: rest, m =>
    let (h, queued) := h.deliver id m
    let (h, more) := deliverAll h rest m
    (h, (if queued then 1 else 0) + more)

/-- The connections of a user's devices but one. -/
def audience (h : Hub) (user : Uuid) (exclude : Option Uuid) : List ConnId :=
  ((h.registry.devices user).filter fun p => exclude != some p.1).map Prod.snd

def broadcast (h : Hub) (user : Uuid) (exclude : Option Uuid) (m : Message) : Hub × Nat :=
  h.deliverAll (h.audience user exclude) m

def countForward (h : Hub) : Hub :=
  { h with counters := { h.counters with forwarded := h.counters.forwarded + 1 } }

def countMiss (h : Hub) : Hub :=
  { h with counters := { h.counters with misses := h.counters.misses + 1 } }

/-- Offers a message to one device of a user; tells whether it was queued. -/
def forward (h : Hub) (user target : Uuid) (m : Message) : Hub × Bool :=
  match h.registry.lookup user target with
  | none => (h.countMiss, false)
  | some id =>
    match h.deliver id m with
    | (h, true) => (h.countForward, true)
    | (h, false) => (h, false)

/-- Through a handle that does not keep the hub alive. -/
def forwardWeak (h : Hub) (user target : Uuid) (m : Message) : Hub × Bool :=
  if h.alive then h.forward user target m else (h, false)

def broadcastWeak (h : Hub) (user : Uuid) (exclude : Option Uuid) (m : Message) : Hub × Nat :=
  if h.alive then h.broadcast user exclude m else (h, 0)

/-- Acts on one text frame of a client: a ping is answered, a request relayed in the sender's name,
and anything else refused with an error. -/
def handleText (h : Hub) (id : ConnId) (raw : String) : Hub :=
  let h := h.update id Connection.markActive
  match h.connection? id with
  | none => h
  | some c =>
    match Inbound.decode raw with
    | .ok .ping => h.send id (.message .reply)
    | .ok (.relay r) => (h.forwardWeak c.user r.target (.relay (r.sentBy c.device))).1
    | .error refusal => h.send id (.message (.error refusal.report))

end SignalHub.Hub
