import SignalHub.World.Basic

/-! Tasks that can make a step are queued and take turns; each goes on until it has to wait. When no
task is left the world is settled. Time passes only in a settled world, from one instant at which
something falls due to the next; whatever falls due at one instant is queued in the order in which
its timers were set, before any of it runs. -/
namespace SignalHub.World

/-- The queue after a step: the task that made it comes first if it can go on, and tasks that have
become able to go on come last. -/
def queueAfter (w : World) (task : Task) (rest : List Task) : List Task :=
  let queue := if w.can task then task :: rest else rest
  queue ++ w.tasks.filter fun t => w.can t && !queue.contains t

def runQueue : Nat → List Task → World → World
  | 0, _, w => w
  | _ + 1, [], w => w
  | n + 1, t :: rest, w =>
    if w.can t then
      let w := w.step t
      runQueue n (w.queueAfter t rest) w
    else runQueue n rest w

/-- Pings that a writer is behind with. -/
def pingsBehind (w : World) (p : Pump) : Nat :=
  if w.settings.pingPeriod = 0 then 0 else (w.now - p.writer.nextPing) / w.settings.pingPeriod + 1

def backlog (w : World) (p : Pump) : Nat :=
  p.unread.length + w.pingsBehind p + 8 +
    ((w.hub.connection? p.conn).map fun c => c.queue.length).getD 0

/-- More steps than a world can make before it is settled. -/
def steps (w : World) : Nat :=
  8 * (w.pumps.length + 2) * (w.pumps.foldl (fun n p => n + w.backlog p) 0 + w.desk.inbox.length + 8)

def ready (w : World) : List Task := w.tasks.filter w.can

/-- All that can happen at this instant, starting with the tasks in the queue. -/
def settleFrom (queue : List Task) (w : World) : World := (runQueue w.steps queue w).tellAll

def settle (w : World) : World := w.settleFrom w.ready

/-- Timers go off at whole milliseconds. -/
def roundUp (t : Nat) : Nat :=
  (t + (Settings.millisecond - 1)) / Settings.millisecond * Settings.millisecond

structure Timer where
  due : Nat
  set : Nat
  task : Task

def pumpTimers (i : Nat) (p : Pump) : List Timer :=
  (p.readDue.map fun due => ⟨roundUp due, p.readSet, .serve i⟩).toList ++
    (p.writeDue.map fun due => ⟨roundUp due, p.writeSet, .write i⟩).toList

def allTimers (w : World) : List Timer := (w.pumps.mapIdx pumpTimers).flatten

def nextDue (w : World) : Option Nat :=
  (w.allTimers.map Timer.due).foldl (fun least due => some (match least with
    | some l => min l due
    | none => due)) none

/-- What falls due now, in the order in which the timers were set. -/
def dueTasks (w : World) : List Task :=
  ((w.allTimers.filter fun t => t.due ≤ w.now).mergeSort fun a b => a.set ≤ b.set).map Timer.task

def advanceTo : Nat → Nat → World → World
  | 0, target, w => { w with now := target }
  | n + 1, target, w =>
    match w.nextDue with
    | some due =>
      if due ≤ target then
        let w := { w with now := max w.now due }
        advanceTo n target (w.settleFrom w.dueTasks)
      else { w with now := target }
    | none => { w with now := target }

/-- Lets time pass; there are no more instants than milliseconds. -/
def advance (w : World) (milliseconds : Nat) : World :=
  advanceTo (milliseconds + 1) (w.now + milliseconds * Settings.millisecond) w

end SignalHub.World
