import SignalHub.Hub.Connection
import SignalHub.Settings

/-! A writer takes messages out of a connection's queue and writes them one at a time, and a ping
whenever a period has passed. Each write has a deadline. When the queue is closed and empty a close
frame is written last; when a write fails or takes too long nothing is written after it. In the end
the queue is closed, and then the socket. -/
namespace SignalHub

/-- What is to be written. -/
inductive Job where
  | outbound (o : Outbound)
  | ping
  | close
  deriving DecidableEq, Repr

/-- What a socket has been seen to do. -/
inductive Written where
  | text (raw : String)
  | ping
  | close
  | closed
  deriving DecidableEq, Repr

def Job.written : Job → Written
  | .outbound o => .text o.frame
  | .ping => .ping
  | .close => .close

/-- The writing side of a socket: a write is accepted at once, stays pending while the socket is
stalled, or fails. -/
structure Sink where
  stalled : Bool
  failing : Bool
  deriving DecidableEq, Repr

inductive WriterStage where
  | idle
  | writing (job : Job) (deadline : Nat)
  | ended
  deriving DecidableEq, Repr

structure Writer where
  nextPing : Nat
  stage : WriterStage
  deriving DecidableEq, Repr

namespace Writer

/-- A writer that cannot keep a period of pings ends before it begins. -/
def start (s : Settings) (now : Nat) : Writer :=
  ⟨now + s.pingPeriod, if s.pingPeriod = 0 then .ended else .idle⟩

def ended (w : Writer) : Bool :=
  match w.stage with
  | .ended => true
  | _ => false

structure Outcome where
  connection : Connection
  writer : Writer
  written : List Written

def beginJob (s : Settings) (now : Nat) (c : Connection) (w : Writer) (job : Job) : Outcome :=
  ⟨c, { w with stage := .writing job (now + s.writeWait) }, []⟩

def finish (c : Connection) (w : Writer) (written : List Written) : Outcome :=
  ⟨c.close, { w with stage := .ended }, written ++ [.closed]⟩

/-- A job has been written. -/
def complete (c : Connection) (w : Writer) : Job → Outcome
  | .close => finish c w [.close]
  | job => ⟨c, { w with stage := .idle }, [job.written]⟩

/-- The first thing in the queue, or the close frame if there will be none. -/
def serveQueue? (s : Settings) (now : Nat) (c : Connection) (w : Writer) : Option Outcome :=
  match c.take? with
  | some (o, c) => some (beginJob s now c w (.outbound o))
  | none => if c.senderOpen then none else some (beginJob s now c w .close)

def ping? (s : Settings) (now : Nat) (c : Connection) (w : Writer) : Option Outcome :=
  if w.nextPing ≤ now then
    some (beginJob s now c { w with nextPing := w.nextPing + s.pingPeriod } .ping)
  else none

/-- One step of the writer, if it can make one. When there is something in the queue and a ping is
due, either may come first. -/
def step? (s : Settings) (now : Nat) (sink : Sink) (pingFirst : Bool) (c : Connection)
    (w : Writer) : Option Outcome :=
  match w.stage with
  | .ended => none
  | .writing job deadline =>
    if sink.failing then some (finish c w [])
    else if !sink.stalled then some (complete c w job)
    else if deadline ≤ now then some (finish c w [])
    else none
  | .idle =>
    if pingFirst then (ping? s now c w).or (serveQueue? s now c w)
    else (serveQueue? s now c w).or (ping? s now c w)

end Writer
end SignalHub
