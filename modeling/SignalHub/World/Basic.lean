import SignalHub.Directory
import SignalHub.Pump.Basic

/-! The world of a hub: the hub with its runner, the connections that are served, the directory, and
a clock in nanoseconds. Three kinds of tasks move it, one small step at a time: the two sides of
each served connection and the hub's runner. -/
namespace SignalHub

inductive Task where
  | write (pump : Nat)
  | serve (pump : Nat)
  | runner
  deriving DecidableEq, Repr

structure World where
  desk : Desk
  directory : Directory
  directoryFails : Bool
  settings : Settings
  now : Nat
  pumps : List Pump
  timers : Nat

namespace World

def new (settings : Settings) (directory : Directory) (reports : Bool) : World where
  desk := .new reports
  directory := directory
  directoryFails := false
  settings := settings
  now := 0
  pumps := []
  timers := 0

def hub (w : World) : Hub := w.desk.hub

def setHub (w : World) (h : Hub) : World := { w with desk := { w.desk with hub := h } }

def setPump (w : World) (i : Nat) (p : Pump) : World := { w with pumps := w.pumps.set i p }

def updatePump (w : World) (i : Nat) (f : Pump → Pump) : World :=
  { w with pumps := w.pumps.modify i f }

/-- Starts to serve a connection. When its writer ends at once, nobody is left to read the queue. -/
def attend (w : World) (conn : ConnId) (answers : Bool) : World :=
  let p := { Pump.start w.settings w.now conn answers with readSet := w.timers, writeSet := w.timers }
  let hub := if p.writer.ended then w.hub.update conn Connection.dropReceiver else w.hub
  { w.setHub hub with pumps := w.pumps ++ [p], timers := w.timers + 1 }

def serveStep (w : World) (i : Nat) (hasty : Bool) : World :=
  match w.pumps[i]? with
  | none => w
  | some p =>
    let (desk, p) := p.serve w.settings w.now hasty w.desk
    { w with desk := desk, timers := w.timers + 1 }.setPump i { p with readSet := w.timers }

def writeStep (w : World) (i : Nat) (pingFirst : Bool) : World :=
  match w.pumps[i]?.bind fun p => p.write? w.settings w.now pingFirst w.desk with
  | none => w
  | some (desk, p) =>
    { w with desk := desk, timers := w.timers + 1 }.setPump i { p with writeSet := w.timers }

/-- Where a task may do either of two things it does them in a fixed order: what is in the queue comes
before a ping, and what is unread before the end of the serving. -/
def step (w : World) : Task → World
  | .write i => w.writeStep i false
  | .serve i => w.serveStep i false
  | .runner => { w with desk := w.desk.runnerStep }

/-- The task can make a step. -/
def can (w : World) : Task → Bool
  | .write i => (w.pumps[i]?.bind fun p => p.write? w.settings w.now false w.desk).isSome
  | .serve i => w.pumps[i]?.any fun p => p.canServe w.now w.desk
  | .runner => w.desk.busy

def tasks (w : World) : List Task :=
  (List.range w.pumps.length).map .write ++ (List.range w.pumps.length).map .serve ++ [.runner]

/-- The directory is told of a change; what it does not know, or fails to do, is passed over. -/
def note (w : World) (p : Presence) : World :=
  if w.directoryFails then w
  else match w.directory.setOnline p.device p.online with
    | .ok directory => { w with directory := directory }
    | .error _ => w

/-- Tells the directory the change at this place among those that are pending. -/
def tell (w : World) (place : Nat) : World :=
  match w.hub.pending[place]? with
  | some p => (w.setHub { w.hub with pending := w.hub.pending.eraseIdx place }).note p
  | none => w

def tellAll (w : World) : World :=
  w.hub.pending.foldl note (w.setHub { w.hub with pending := [] })

end World
end SignalHub
