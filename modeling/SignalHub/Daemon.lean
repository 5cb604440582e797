import SignalHub.Server.Upgrade
import SignalHub.Text.Quoted

/-! A daemon serves a configuration from an address until it is stopped. Stopping ends the hub,
closes what is registered and waits for the hub's runner to end. What happens on the way is noted in
its log. The port it is bound to is the machine's choice where the configuration leaves it open, and
is no part of what is noted here. -/
namespace SignalHub.Daemon

inductive Note where
  | started (config : String) (devices : Nat)
  | hubStarted
  | listening
  | stopRequested
  | hubStopping
  | stopped
  deriving DecidableEq, Repr

namespace Note

def text : Note → String
  | .started .. => "devicelink start"
  | .hubStarted => "websocket hub started"
  | .listening => "signaling server listening"
  | .stopRequested => "shutdown requested"
  | .hubStopping => "hub shutting down"
  | .stopped => "signaling server stopped"

/-- What stands beside the text of a note. -/
def fields : Note → List (String × String)
  | .started config devices =>
    [("version", Quoted.quote Server.version), ("config", config), ("devices", Decimal.text devices)]
  | _ => []

def line (n : Note) : String :=
  " ".intercalate (n.text :: n.fields.map fun (name, value) => name ++ "=" ++ value)

end Note

/-- A server for a configuration, with a hub that reports to the directory. -/
def start (c : Config) : Except Settings.Error Server := do
  let settings ← c.hub.settings
  return ⟨(World.new settings (.ofRecords c.devices) true).settle, c.secret, c.ice⟩

def stop (s : Server) : Server :=
  let world := { s.world with desk := s.world.desk.halt.closeAll true }
  { s with world := world.settle }

/-- The daemon has stopped when the hub's runner has ended. -/
def hasStopped (s : Server) : Bool := s.world.desk.runner == .ended

/-- What is noted before and after a daemon is told to stop. -/
def notesOfStart (c : Config) : List Note :=
  [.started (c.path.getD "") c.devices.length, .hubStarted, .listening]

def notesOfStop : List Note := [.stopRequested, .hubStopping, .stopped]

end SignalHub.Daemon
