import SignalHub.Hub.Desk
import SignalHub.Pump.Reader
import SignalHub.Pump.Writer

/-! A registered connection is served by a reader and a writer. When either ends, the connection
is unregistered and its queue closed; when the writer has ended too, the connection is closed for
good. -/
namespace SignalHub

inductive Serving where
  | reading (reader : Reader)
  | unregistering (call : Nat)
  | closing
  | done
  deriving DecidableEq, Repr

/-- What a served connection's socket has been seen to do, and the end of the serving. -/
inductive Event where
  | written (w : Written)
  | done
  deriving DecidableEq, Repr

/-- A connection being served. Frames that have arrived are read when the reader is awake; `answers`
tells whether the peer answers each ping by itself. `readSet` and `writeSet` number the timers of the
two sides in the order in which they were set. Events have their times and come newest first. -/
structure Pump where
  conn : ConnId
  unread : List Frame
  awake : Bool
  serving : Serving
  writer : Writer
  sink : Sink
  answers : Bool
  readSet : Nat
  writeSet : Nat
  events : List (Nat × Event)
  deriving DecidableEq, Repr

namespace Pump

def start (s : Settings) (now : Nat) (conn : ConnId) (answers : Bool) : Pump where
  conn := conn
  unread := []
  awake := false
  serving := .reading (.start s now)
  writer := .start s now
  sink := ⟨false, false⟩
  answers := answers
  readSet := 0
  writeSet := 0
  events := []

def finished (p : Pump) : Bool := p.serving == .done

/-- A frame arrives; a reader that is asleep may be left so. -/
def arrive (p : Pump) (f : Frame) (hold : Bool) : Pump :=
  { p with unread := p.unread ++ [f], awake := p.awake || !hold }

def deadlinePassed (now : Nat) : Reader → Bool
  | .reading deadline => deadline ≤ now
  | .ended => true

/-- One step of the serving side can be made. -/
def canServe (now : Nat) (d : Desk) (p : Pump) : Bool :=
  match p.serving with
  | .reading r => (p.awake && !p.unread.isEmpty) || deadlinePassed now r || p.writer.ended
  | .unregistering _ => d.runner == .ended || d.inbox.length < Desk.room
  | .closing => p.writer.ended
  | .done => false

/-- The connection is unregistered, whatever ended the serving. -/
def leave (d : Desk) (p : Pump) : Desk × Pump :=
  (d.beginCall (.unregister p.conn), { p with serving := .unregistering d.calls.length })

/-- The reader reads a frame or, if there is none, looks at its deadline. -/
def read (s : Settings) (now : Nat) (d : Desk) (p : Pump) (r : Reader) : Desk × Pump × Reader :=
  match p.unread with
  | f :: rest =>
    let (hub, r) := r.receive s now p.conn f d.hub
    ({ d with hub := hub }, { p with unread := rest, awake := !rest.isEmpty }, r)
  | [] => (d, { p with awake := false }, r.wait now)

/-- One step of the serving side. When the writer has ended, what is unread may be left unread. -/
def serve (s : Settings) (now : Nat) (hasty : Bool) (d : Desk) (p : Pump) : Desk × Pump :=
  match p.serving with
  | .reading r =>
    if (hasty || p.unread.isEmpty) && p.writer.ended then leave d p
    else match read s now d p r with
      | (d, p, .ended) => leave d p
      | (d, p, r) => (d, { p with serving := .reading r })
  | .unregistering call =>
    let d := d.post call
    match d.calls[call]? with
    | some ⟨_, .posting⟩ => (d, p)
    | _ => ({ d with hub := d.hub.update p.conn Connection.close }, { p with serving := .closing })
  | .closing =>
    if p.writer.ended then
      ({ d with hub := d.hub.update p.conn Connection.markClosed },
        { p with serving := .done, events := (now, .done) :: p.events })
    else (d, p)
  | .done => (d, p)

/-- A peer that answers pings by itself does so as soon as it sees one. -/
def answered (p : Pump) (written : List Written) : Pump :=
  if p.answers && written.contains .ping then p.arrive .pong false else p

/-- One step of the writer, if it can make one. -/
def write? (s : Settings) (now : Nat) (pingFirst : Bool) (d : Desk) (p : Pump) :
    Option (Desk × Pump) := do
  let c ← d.hub.connection? p.conn
  let o ← p.writer.step? s now p.sink pingFirst c
  let hub := d.hub.update p.conn fun _ => o.connection
  let events := (o.written.map fun w => (now, Event.written w)).reverse ++ p.events
  return ({ d with hub := hub }, { p with writer := o.writer, events := events }.answered o.written)

/-- The instants at which something falls due. -/
def readDue (p : Pump) : Option Nat :=
  match p.serving with
  | .reading (.reading deadline) => some deadline
  | _ => none

def writeDue (p : Pump) : Option Nat :=
  match p.writer.stage with
  | .idle => some p.writer.nextPing
  | .writing _ deadline => some deadline
  | .ended => none

end Pump
end SignalHub
