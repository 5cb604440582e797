import SignalHub.Hub.Registration

/-! Everything that callers, clients and sockets do to a hub, one step at a time and in any order. A
step that delivers something first arranges the hub and then makes its offers one after the other.
The verdicts on the offers of a run are its log. -/
namespace SignalHub

def Uuid.repeated (digit : Fin 16) : Uuid := ⟨List.replicate 32 digit, List.length_replicate⟩

/-- A device of which nothing matters but who it is. -/
def Device.Info.plain (id : Uuid) (name : String) : Device.Info :=
  ⟨id, name, name, "mobile", true, true, true⟩

def Connection.dropFirst (c : Connection) : Connection := { c with queue := c.queue.tail }

namespace Hub

inductive Step where
  | connect (user device : Uuid) (info : Device.Info) (capacity : Nat)
  | register (conn : ConnId)
  | unregister (conn : ConnId)
  | join (conn : ConnId)
  | leave (conn : ConnId)
  | text (conn : ConnId) (raw : String)
  | forward (weak : Bool) (user target : Uuid) (m : Message)
  | broadcast (weak : Bool) (user : Uuid) (exclude : Option Uuid) (m : Message)
  | streamStart (user : Uuid) (start : StreamStart)
  | streamEnd (user stream : Uuid)
  | send (conn : ConnId) (o : Outbound)
  | close (conn : ConnId)
  | receive (conn : ConnId)
  | dropReceiver (conn : ConnId)
  | finish (conn : ConnId)
  | halt
  | release
  | closeAll (inside : Bool)
  deriving DecidableEq, Repr

/-- What a step tells the one who made it. -/
inductive Answer where
  | done
  | made (conn : ConnId)
  | flag (yes : Bool)
  | count (n : Nat)
  | verdict (v : Offer)
  | received (o : Option Outbound) (ended : Bool)
  deriving DecidableEq, Repr

/-- Calls to register and unregister come through until the hub is told to stop. -/
def admits (h : Hub) : Bool := !h.stopping && h.alive

/-- A call to register that an idle runner answers at once. -/
def join (h : Hub) (id : ConnId) : Hub × Bool :=
  if h.admits then (h.register id, true) else (h, false)

def leave (h : Hub) (id : ConnId) : Hub := if h.admits then (h.unregister id).1 else h

def forwardVia (h : Hub) (weak : Bool) (user target : Uuid) (m : Message) : Hub × Bool :=
  if weak then h.forwardWeak user target m else h.forward user target m

def broadcastVia (h : Hub) (weak : Bool) (user : Uuid) (exclude : Option Uuid) (m : Message) :
    Hub × Nat :=
  if weak then h.broadcastWeak user exclude m else h.broadcast user exclude m

def step (h : Hub) : Step → Hub
  | .connect user device info capacity => (h.add (.new user device info capacity)).1
  | .register id => h.register id
  | .unregister id => (h.unregister id).1
  | .join id => (h.join id).1
  | .leave id => h.leave id
  | .text id raw => h.handleText id raw
  | .forward weak user target m => (h.forwardVia weak user target m).1
  | .broadcast weak user exclude m => (h.broadcastVia weak user exclude m).1
  | .streamStart user start => (h.broadcast user none (.streamStart start)).1
  | .streamEnd user stream => (h.broadcast user none (.streamEnd stream)).1
  | .send id o => h.send id o
  | .close id => h.update id Connection.close
  | .receive id => h.update id Connection.dropFirst
  | .dropReceiver id => h.update id Connection.dropReceiver
  | .finish id => h.update id Connection.markClosed
  | .halt => h.halt
  | .release => { h.halt with alive := false }
  | .closeAll inside => (h.closeAll inside).1

def answer (h : Hub) : Step → Answer
  | .connect user device info capacity => .made (h.add (.new user device info capacity)).2
  | .unregister id => .flag (h.unregister id).2
  | .join id => .flag (h.join id).2
  | .forward weak user target m => .flag (h.forwardVia weak user target m).2
  | .broadcast weak user exclude m => .count (h.broadcastVia weak user exclude m).2
  | .streamStart user start => .count (h.broadcast user none (.streamStart start)).2
  | .streamEnd user stream => .count (h.broadcast user none (.streamEnd stream)).2
  | .send id _ => .verdict (h.verdict id)
  | .close id => .flag ((h.connection? id).any Connection.senderOpen)
  | .receive id =>
    .received ((h.connection? id).bind fun c => c.queue.head?)
      ((h.connection? id).all fun c => c.queue.isEmpty && !c.senderOpen)
  | .closeAll inside => .count (h.closeAll inside).2
  | .register _ | .leave _ | .text _ _ | .dropReceiver _ | .finish _ | .halt | .release => .done

/-- The connections that a step adds to those that the hub knows of. -/
def Step.created : Step → List Connection
  | .connect user device info capacity => [.new user device info capacity]
  | _ => []

def run (h : Hub) (steps : List Step) : Hub := steps.foldl step h

/-- The connection that a step puts into the registry. -/
def enrolls (h : Hub) : Step → Option ConnId
  | .register id => if (h.connection? id).isSome then some id else none
  | .join id => if h.admits && (h.connection? id).isSome then some id else none
  | _ => none

/-- Everything that was put into the registry during a run, in order. -/
def registrations : Hub → List Step → List ConnId
  | _, [] => []
  | h, s :: rest => (h.enrolls s).toList ++ registrations (h.step s) rest

/-- The hub with the registry and the phases as a step leaves them, before it offers anything. -/
def arrangeRegister (h : Hub) (id : ConnId) : Hub :=
  match h.connection? id with
  | none => h
  | some c => h.enroll id c

def arrangeUnregister (h : Hub) (id : ConnId) : Hub :=
  match h.connection? id with
  | none => h
  | some c => if h.registry.lookup c.user c.device = some id then h.withdraw id c else h

def arrange (h : Hub) : Step → Hub
  | .register id => h.arrangeRegister id
  | .unregister id => h.arrangeUnregister id
  | .join id => if h.admits then h.arrangeRegister id else h
  | .leave id => if h.admits then h.arrangeUnregister id else h
  | .text id _ => h.update id Connection.markActive
  | .forward .. | .broadcast .. | .streamStart .. | .streamEnd .. | .send .. => h
  | s => h.step s

abbrev Offers := List (ConnId × Outbound)

def Offers.ofMessage (ids : List ConnId) (m : Message) : Offers :=
  ids.map fun id => (id, .message m)

def forwardOffers (h : Hub) (weak : Bool) (user target : Uuid) (m : Message) : Offers :=
  if weak && !h.alive then [] else .ofMessage (h.registry.lookup user target).toList m

def broadcastOffers (h : Hub) (weak : Bool) (user : Uuid) (exclude : Option Uuid) (m : Message) :
    Offers :=
  if weak && !h.alive then [] else .ofMessage (h.audience user exclude) m

def registerOffers (h : Hub) (id : ConnId) : Offers :=
  match h.connection? id with
  | none => []
  | some c =>
    let h := h.enroll id c
    (id, .message (.deviceList (h.onlineDevices c.user))) ::
      h.broadcastOffers false c.user (some c.device) (.deviceOnline c.info)

def unregisterOffers (h : Hub) (id : ConnId) : Offers :=
  match h.connection? id with
  | none => []
  | some c =>
    if h.registry.lookup c.user c.device = some id then
      (h.withdraw id c).broadcastOffers false c.user (some c.device) (.deviceOffline c.device)
    else []

def textOffers (h : Hub) (id : ConnId) (raw : String) : Offers :=
  match h.connection? id with
  | none => []
  | some c =>
    match Inbound.decode raw with
    | .ok .ping => [(id, .message .reply)]
    | .ok (.relay r) => h.forwardOffers true c.user r.target (.relay (r.sentBy c.device))
    | .error refusal => [(id, .message (.error refusal.report))]

/-- What a step offers to which connections, in order. -/
def offers (h : Hub) : Step → Offers
  | .register id => h.registerOffers id
  | .unregister id => h.unregisterOffers id
  | .join id => if h.admits then h.registerOffers id else []
  | .leave id => if h.admits then h.unregisterOffers id else []
  | .text id raw => h.textOffers id raw
  | .forward weak user target m => h.forwardOffers weak user target m
  | .broadcast weak user exclude m => h.broadcastOffers weak user exclude m
  | .streamStart user start => h.broadcastOffers false user none (.streamStart start)
  | .streamEnd user stream => h.broadcastOffers false user none (.streamEnd stream)
  | .send id o => [(id, o)]
  | _ => []

def sendAll (h : Hub) (offers : Offers) : Hub := offers.foldl (fun h p => h.send p.1 p.2) h

structure Attempt where
  conn : ConnId
  item : Outbound
  verdict : Offer
  deriving DecidableEq, Repr

/-- Each offer with what became of it when its turn came. -/
def trials : Hub → Offers → List Attempt
  | _, [] => []
  | h, p :: rest => ⟨p.1, p.2, h.verdict p.1⟩ :: trials (h.send p.1 p.2) rest

def attempts (h : Hub) (s : Step) : List Attempt := (h.arrange s).trials (h.offers s)

def log : Hub → List Step → List Attempt
  | _, [] => []
  | h, s :: rest => h.attempts s ++ log (h.step s) rest

/-- What a connection's queue took, in order. -/
def accepted (id : ConnId) (attempts : List Attempt) : List Outbound :=
  (attempts.filter fun a => a.conn == id && a.verdict == .queued).map Attempt.item

end Hub
end SignalHub
