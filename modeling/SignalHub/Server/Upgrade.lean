import SignalHub.Server.Respond

/-! A granted websocket becomes a connection of the device, registered under its user and shown to
siblings as its record says; then it is served. When the hub is shut down it is dropped instead. -/
namespace SignalHub.Server

/-- The connection of a granted websocket, and the place where it is served. -/
structure Opened where
  conn : ConnId
  pump : Option Nat
  deriving DecidableEq, Repr

def accept (s : Server) (user : Uuid) (record : Device.Record) : Server × Opened :=
  let (world, conn) :=
    s.world.connect user record.id record.onlineSnapshot s.world.settings.capacity
  let (world, registered) := world.register conn
  if registered then
    let (world, pump) := world.serve conn true
    ({ s with world := world }, ⟨conn, some pump⟩)
  else ({ s with world := world }, ⟨conn, none⟩)

/-- What a request over a connection of its own does. -/
def handle (s : Server) (moment : Moment) (upgradable : Bool) (r : Http.Request) :
    Server × (Http.Response ⊕ Opened) :=
  match s.answer moment upgradable r with
  | .response response => (s, .inl response)
  | .websocket user record =>
    let (s, opened) := s.accept user record
    (s, .inr opened)

/-- A text or binary message of a client; one that is too long breaks the reading. -/
def clientFrame (settings : Settings) (bytes : Nat) (f : Frame) : Frame :=
  if bytes ≤ settings.maxMessageBytes then f else .failure

end SignalHub.Server
