import SignalHub.Hub.Deliver

/-! A connection that registers takes the place of the one that was registered for its device, which
is closed; it is told which devices of its user are online, and they are told about it. A connection
that unregisters is taken out only if it is the registered one. -/
namespace SignalHub.Hub

/-- What the devices of a user are like, in the order in which they are listed. -/
def onlineDevices (h : Hub) (user : Uuid) : List Device.Info :=
  Device.Info.listed ((h.registry.devices user).filterMap fun p =>
    (h.connection? p.2).map Connection.info)

def isOnline (h : Hub) (user device : Uuid) : Bool := (h.registry.lookup user device).isSome

def hasIdentity (h : Hub) (user : Uuid) : Bool := (h.registry.get? user).isSome

def connectionCount (h : Hub) : Nat := (h.registry.flatMap fun p => p.2).length

/-- Closes the connection that is registered for a device, if there is one. -/
def supersede (h : Hub) (user device : Uuid) : Hub :=
  match h.registry.lookup user device with
  | some old =>
    let h := h.update old Connection.close
    { h with counters := { h.counters with superseded := h.counters.superseded + 1 } }
  | none => h

/-- Puts a connection into the registry. -/
def enroll (h : Hub) (id : ConnId) (c : Connection) : Hub :=
  let h := h.supersede c.user c.device
  let h := h.update id Connection.markRegistered
  { h with
    registry := h.registry.enroll c.user c.device id
    counters := { h.counters with registered := h.counters.registered + 1 } }

def register (h : Hub) (id : ConnId) : Hub :=
  match h.connection? id with
  | none => h
  | some c =>
    let h := h.enroll id c
    let h := (h.deliver id (.deviceList (h.onlineDevices c.user))).1
    let h := (h.broadcast c.user (some c.device) (.deviceOnline c.info)).1
    h.report c.device true

/-- Takes a connection out of the registry and closes it. -/
def withdraw (h : Hub) (id : ConnId) (c : Connection) : Hub :=
  let h := h.update id Connection.close
  { h with
    registry := h.registry.expel c.user c.device
    counters := { h.counters with unregistered := h.counters.unregistered + 1 } }

/-- Tells whether the connection was the registered one. -/
def unregister (h : Hub) (id : ConnId) : Hub × Bool :=
  match h.connection? id with
  | none => (h, false)
  | some c =>
    if h.registry.lookup c.user c.device = some id then
      let h := h.withdraw id c
      let h := (h.broadcast c.user (some c.device) (.deviceOffline c.device)).1
      (h.report c.device false, true)
    else (h, false)

/-- Closes one connection that is no longer registered; `inside` tells whether presence can be
reported from here. -/
def drain (inside : Bool) (h : Hub) (id : ConnId) : Hub :=
  match h.connection? id with
  | none => h
  | some c =>
    let h := h.update id Connection.close
    if inside then h.report c.device false else h

/-- Empties the registry and closes what was in it; tells how many connections that were. -/
def closeAll (h : Hub) (inside : Bool) : Hub × Nat :=
  let ids := h.registry.connections
  (ids.foldl (drain inside) { h with registry := [] }, ids.length)

end SignalHub.Hub
