import SignalHub.World.Schedule

/-! What clients, sockets and callers do to the world. After each action the world settles. -/
namespace SignalHub.World

/-- A new connection that nobody serves. -/
def connect (w : World) (user device : Uuid) (info : Device.Info) (capacity : Nat) :
    World × ConnId :=
  let (h, id) := w.hub.add (.new user device info capacity)
  (w.setHub h, id)

/-- A call is made and its command put into the queue. -/
def call (w : World) (ask : Ask) : World × Nat :=
  let call := w.desk.calls.length
  ({ w with desk := (w.desk.beginCall ask).post call }.settle, call)

/-- Tells whether the connection was registered. -/
def register (w : World) (id : ConnId) : World × Bool :=
  let (w, call) := w.call (.register id)
  (w, w.desk.calls[call]?.any fun c => c.stage == .accepted)

def unregister (w : World) (id : ConnId) : World := (w.call (.unregister id)).1

def handleText (w : World) (id : ConnId) (raw : String) : World :=
  (w.setHub (w.hub.handleText id raw)).settle

def send (w : World) (id : ConnId) (o : Outbound) : World × Offer :=
  ((w.setHub (w.hub.send id o)).settle, w.hub.verdict id)

/-- Tells whether the queue was open. -/
def close (w : World) (id : ConnId) : World × Bool :=
  ((w.setHub (w.hub.update id Connection.close)).settle,
    (w.hub.connection? id).any Connection.senderOpen)

def forward (w : World) (weak : Bool) (user target : Uuid) (m : Message) : World × Bool :=
  let (h, queued) := if weak then w.hub.forwardWeak user target m else w.hub.forward user target m
  ((w.setHub h).settle, queued)

def broadcast (w : World) (weak : Bool) (user : Uuid) (exclude : Option Uuid) (m : Message) :
    World × Nat :=
  let (h, count) :=
    if weak then w.hub.broadcastWeak user exclude m else w.hub.broadcast user exclude m
  ((w.setHub h).settle, count)

def closeAll (w : World) (inside : Bool) : World × Nat :=
  let (h, count) := w.hub.closeAll inside
  ((w.setHub h).settle, count)

def shutdown (w : World) : World := { w with desk := w.desk.halt }.settle

/-- The hub stops and nobody holds it any longer. -/
def drop (w : World) : World := let w := w.shutdown; w.setHub { w.hub with alive := false }

/-- The runner is dropped before it has run. -/
def dismissRunner (w : World) : World := { w with desk := w.desk.dismiss }

/-- What is left in a queue when its reader stops. -/
inductive Remainder where
  | empty | closed | more
  deriving DecidableEq, Repr

def Remainder.name : Remainder → String
  | .empty => "empty"
  | .closed => "closed"
  | .more => "more"

/-- Takes messages out of a queue, all of them if there is no limit. -/
def take (w : World) (id : ConnId) (limit : Option Nat) : World × List Outbound × Remainder :=
  match w.hub.connection? id with
  | none => (w, [], .closed)
  | some c =>
    let count := limit.getD (c.queue.length + 1)
    let taken := c.queue.take count
    let left :=
      if taken.length = count then Remainder.more
      else if c.senderOpen then .empty
      else .closed
    (w.setHub (w.hub.update id fun c => { c with queue := c.queue.drop count }), taken, left)

def dropReceiver (w : World) (id : ConnId) : World :=
  w.setHub (w.hub.update id Connection.dropReceiver)

def serve (w : World) (id : ConnId) (answers : Bool) : World × Nat :=
  ((w.attend id answers).settle, w.pumps.length)

def arrive (w : World) (pump : Nat) (f : Frame) (hold : Bool) : World :=
  (w.updatePump pump (·.arrive f hold)).settle

def setSink (w : World) (pump : Nat) (change : Sink → Sink) : World :=
  (w.updatePump pump fun p => { p with sink := change p.sink }).settle

/-- The socket breaks: nothing more is read and nothing can be written. -/
def cut (w : World) (pump : Nat) : World :=
  (w.updatePump pump fun p => { p.arrive .failure false with sink := ⟨false, true⟩ }).settle

/-- What has been seen of each pump since it was looked at last, oldest first. -/
def seen (w : World) : World × List (List (Nat × Event)) :=
  ({ w with pumps := w.pumps.map fun p => { p with events := [] } },
    w.pumps.map fun p => p.events.reverse)

end SignalHub.World
