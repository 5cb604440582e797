import SignalHub.Hub.Registration

/-! Connections are registered and unregistered by calls from many sides. Calls put commands into a
bounded queue, and one runner takes them out and applies them one at a time. A call to register
looks first whether the hub is stopping, and ends when its command is answered; when the runner
ends, commands that are still queued are never answered. Each move of a caller or of the runner is a
step of its own, so the moves of all sides may come in any order. -/
namespace SignalHub

inductive Command where
  | register (conn : ConnId) (call : Nat)
  | unregister (conn : ConnId)
  deriving DecidableEq, Repr

inductive Runner where
  | checking
  | waiting
  | holding (command : Command)
  | answering (call : Nat)
  | ended
  deriving DecidableEq, Repr

/-- What a caller asks for. -/
inductive Ask where
  | register (conn : ConnId)
  | unregister (conn : ConnId)
  deriving DecidableEq, Repr

/-- How far a call has come. -/
inductive Stage where
  | posting
  | posted
  | accepted
  | refused
  deriving DecidableEq, Repr

structure Call where
  ask : Ask
  stage : Stage
  deriving DecidableEq, Repr

structure Desk where
  hub : Hub
  inbox : List Command
  runner : Runner
  notified : Bool
  calls : List Call
  deriving DecidableEq, Repr

namespace Desk

/-- How many commands may wait. -/
def room : Nat := 256

def new (reports : Bool) : Desk := ⟨.new reports, [], .checking, false, []⟩

def setStage (d : Desk) (call : Nat) (stage : Stage) : Desk :=
  { d with calls := d.calls.modify call fun c => { c with stage := stage } }

/-- A call begins; one to register is refused at once when the hub is stopping or gone. -/
def beginCall (d : Desk) (ask : Ask) : Desk :=
  let stage := match ask with
    | .register _ => if d.hub.stopping || !d.hub.alive then Stage.refused else .posting
    | .unregister _ => .posting
  { d with calls := d.calls ++ [⟨ask, stage⟩] }

/-- A call puts its command into the queue, waits for room, or finds the queue closed. -/
def post (d : Desk) (call : Nat) : Desk :=
  match d.calls[call]? with
  | some ⟨ask, .posting⟩ =>
    if d.runner = .ended then d.setStage call .refused
    else if d.inbox.length < room then
      match ask with
      | .register conn =>
        { d.setStage call .posted with inbox := d.inbox ++ [.register conn call] }
      | .unregister conn =>
        { d.setStage call .accepted with inbox := d.inbox ++ [.unregister conn] }
    else d
  | _ => d

/-- Nobody will answer: calls that wait for an answer are refused. -/
def abandon (c : Call) : Call := if c.stage = .posted then { c with stage := .refused } else c

/-- The runner ends, and with it the commands that it has not taken. -/
def dismiss (d : Desk) : Desk :=
  { d with runner := .ended, inbox := [], calls := d.calls.map abandon }

def check (d : Desk) : Desk :=
  match d.runner with
  | .checking => if d.hub.stopping then d.dismiss else { d with runner := .waiting }
  | _ => d

/-- The runner hears that it should stop, or else takes the next command. -/
def take (d : Desk) : Desk :=
  match d.runner, d.notified, d.inbox with
  | .waiting, true, _ => { d with notified := false }.dismiss
  | .waiting, false, command :: rest => { d with runner := .holding command, inbox := rest }
  | _, _, _ => d

def apply (d : Desk) : Desk :=
  match d.runner with
  | .holding (.register conn call) =>
    { d with hub := d.hub.register conn, runner := .answering call }
  | .holding (.unregister conn) =>
    { d with hub := (d.hub.unregister conn).1, runner := .checking }
  | _ => d

def answer (d : Desk) : Desk :=
  match d.runner with
  | .answering call => { d.setStage call .accepted with runner := .checking }
  | _ => d

/-- The hub is told to stop. -/
def halt (d : Desk) : Desk := { d with hub := d.hub.halt, notified := true }

def closeAll (d : Desk) (inside : Bool) : Desk := { d with hub := (d.hub.closeAll inside).1 }

inductive Move where
  | beginCall (ask : Ask)
  | post (call : Nat)
  | check
  | take
  | apply
  | answer
  | halt
  | closeAll
  deriving DecidableEq, Repr

def move (d : Desk) : Move → Desk
  | .beginCall ask => d.beginCall ask
  | .post call => d.post call
  | .check => d.check
  | .take => d.take
  | .apply => d.apply
  | .answer => d.answer
  | .halt => d.halt
  | .closeAll => d.closeAll true

def run (d : Desk) (moves : List Move) : Desk := moves.foldl move d

/-- The runner has something to do. -/
def busy (d : Desk) : Bool :=
  match d.runner with
  | .waiting => d.notified || !d.inbox.isEmpty
  | .ended => false
  | _ => true

/-- The one move that the runner can make. -/
def runnerStep (d : Desk) : Desk :=
  match d.runner with
  | .checking => d.check
  | .waiting => d.take
  | .holding _ => d.apply
  | .answering _ => d.answer
  | .ended => d

end Desk
end SignalHub
