import SignalHub.Hub.Connection
import SignalHub.Hub.Counters
import SignalHub.Hub.Table

/-! The hub keeps, for each user, the connection that is registered for each device. Connections
have numbers, and the registry holds numbers; a connection that has been replaced keeps its own.
Changes of presence wait in `pending` until the directory is told. -/
namespace SignalHub

abbrev ConnId := Nat

abbrev Registry := Table Uuid (Table Uuid ConnId)

namespace Registry

def devices (r : Registry) (user : Uuid) : Table Uuid ConnId := (r.get? user).getD []

def lookup (r : Registry) (user device : Uuid) : Option ConnId := (r.devices user).get? device

def enroll (r : Registry) (user device : Uuid) (id : ConnId) : Registry :=
  r.put user ((r.devices user).put device id)

/-- Takes a device out; a user without devices is taken out too. -/
def expel (r : Registry) (user device : Uuid) : Registry :=
  let rest := (r.devices user).erase device
  if rest.isEmpty then r.erase user else r.put user rest

def connections (r : Registry) : List ConnId := r.flatMap fun p => p.2.map Prod.snd

end Registry

/-- A change of presence that the directory has not been told yet. -/
structure Presence where
  device : Uuid
  online : Bool
  deriving DecidableEq, Repr

structure Hub where
  connections : List Connection
  registry : Registry
  counters : Counters
  reports : Bool
  pending : List Presence
  stopping : Bool
  alive : Bool
  deriving DecidableEq, Repr

namespace Hub

/-- A hub without connections; `reports` tells whether it reports to a directory. -/
def new (reports : Bool) : Hub := ⟨[], [], .zero, reports, [], false, true⟩

def connection? (h : Hub) (id : ConnId) : Option Connection := h.connections[id]?

def update (h : Hub) (id : ConnId) (f : Connection → Connection) : Hub :=
  { h with connections := h.connections.modify id f }

def add (h : Hub) (c : Connection) : Hub × ConnId :=
  ({ h with connections := h.connections ++ [c] }, h.connections.length)

def report (h : Hub) (device : Uuid) (online : Bool) : Hub :=
  if h.reports then { h with pending := h.pending ++ [⟨device, online⟩] } else h

def halt (h : Hub) : Hub := { h with stopping := true }

end Hub
end SignalHub
