import SignalHub.Device
import SignalHub.Settings

/-! What a server is configured with: its address and secret, the limits of its connections, the
servers it recommends for direct connections, and the devices it knows. Every part that a file does
not give has a default. -/
namespace SignalHub

/-- Limits of connections; the two times are in seconds. -/
structure HubLimits where
  capacity : Nat
  writeWait : Nat
  pongWait : Nat
  maxMessageBytes : Nat
  deriving DecidableEq, Repr

structure IceServers where
  stun : List String
  turn : List String
  username : String
  credential : String
  deriving DecidableEq, Repr

structure Config where
  listenAddress : String
  secret : String
  logPath : Option String
  hub : HubLimits
  ice : IceServers
  devices : List Device.Record
  /-- The file that it was read from. This is no member of the file. -/
  path : Option String
  deriving DecidableEq, Repr

namespace HubLimits

def standard : HubLimits := ⟨Settings.defaultCapacity, 10, 60, Settings.defaultMaxMessageBytes⟩

def ofJson? (v : Json) : Option HubLimits := do
  let fields ← v.fields?
    ["send_queue_capacity", "write_wait_secs", "pong_wait_secs", "max_message_bytes"]
  let capacity ← fields.withDefault "send_queue_capacity" Json.word64? standard.capacity
  let writeWait ← fields.withDefault "write_wait_secs" Json.word64? standard.writeWait
  let pongWait ← fields.withDefault "pong_wait_secs" Json.word64? standard.pongWait
  let maxMessageBytes ← fields.withDefault "max_message_bytes" Json.word64? standard.maxMessageBytes
  return ⟨capacity, writeWait, pongWait, maxMessageBytes⟩

def settings (l : HubLimits) : Except Settings.Error Settings :=
  Settings.make l.capacity (l.writeWait * Settings.second) (l.pongWait * Settings.second)
    l.maxMessageBytes

end HubLimits

namespace IceServers

def standard : IceServers where
  stun := ["stun:stun.l.google.com:19302", "stun:openrelay.metered.ca:80"]
  turn := ["turn:openrelay.metered.ca:80", "turn:openrelay.metered.ca:443",
    "turn:openrelay.metered.ca:443?transport=tcp"]
  username := "openrelayproject"
  credential := "openrelayproject"

def ofJson? (v : Json) : Option IceServers := do
  let fields ← v.fields? ["stun_servers", "turn_servers", "turn_username", "turn_credential"]
  let stun ← fields.withDefault "stun_servers" (Json.list? Json.string?) standard.stun
  let turn ← fields.withDefault "turn_servers" (Json.list? Json.string?) standard.turn
  let username ← fields.withDefault "turn_username" Json.string? standard.username
  let credential ← fields.withDefault "turn_credential" Json.string? standard.credential
  return ⟨stun, turn, username, credential⟩

/-- One server as clients are told about it. -/
def entry (url : String) (login : List (String × Json)) : Json :=
  .ofMembers (("urls", .array [.ofString url]) :: login)

/-- The recommended servers; only the relaying ones need a login. -/
def toJson (s : IceServers) : Json :=
  .ofMembers [("ice_servers", .array (s.stun.map (entry · []) ++ s.turn.map (entry ·
    [("username", .ofString s.username), ("credential", .ofString s.credential)])))]

end IceServers

namespace Config

def standard : Config := ⟨"127.0.0.1:3000", "", none, .standard, .standard, [], none⟩

def ofJson? (v : Json) : Option Config := do
  let fields ← v.fields? ["listen_addr", "jwt_secret", "log_path", "hub", "ice", "devices"]
  let listenAddress ← fields.withDefault "listen_addr" Json.string? standard.listenAddress
  let secret ← fields.withDefault "jwt_secret" Json.string? standard.secret
  let logPath ← fields.withDefault "log_path" (Json.nullable? Json.string?) none
  let hub ← fields.withDefault "hub" HubLimits.ofJson? .standard
  let ice ← fields.withDefault "ice" IceServers.ofJson? .standard
  let devices ← fields.withDefault "devices" (Json.list? Device.Record.ofJson?) []
  return ⟨listenAddress, secret, logPath, hub, ice, devices, none⟩

end Config
end SignalHub
