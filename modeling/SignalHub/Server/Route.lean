import SignalHub.Http.Request
import SignalHub.Text.Parts

/-! What a path leads to. All routes but two are for users who show a token. -/
namespace SignalHub.Server

inductive Route where
  | ping
  | health
  | websocket
  | iceServers
  | devicesOnline
  | deviceOnline (segment : List UInt8)
  deriving DecidableEq, Repr

namespace Route

def isProtected : Route → Bool
  | .ping | .health => false
  | _ => true

def ofSegments? : List (List UInt8) → Option Route
  | [_, a] =>
    if a = Utf8.encode "ping" then some .ping
    else if a = Utf8.encode "health" then some .health
    else if a = Utf8.encode "ws" then some .websocket
    else none
  | [_, a, b, c, d] =>
    if [a, b, c, d] = ["api", "v1", "webrtc", "ice-servers"].map Utf8.encode then some .iceServers
    else if [a, b, c, d] = ["api", "v1", "devices", "online"].map Utf8.encode then
      some .devicesOnline
    else none
  | [_, a, b, c, segment, d] =>
    if [a, b, c, d] = ["api", "v1", "devices", "online"].map Utf8.encode then
      some (.deviceOnline segment)
    else none
  | _ => none

/-- The route of a path, which starts with a slash. -/
def ofPath? (path : List UInt8) : Option Route :=
  match Parts.split 0x2F path with
  | [] :: segments => ofSegments? ([] :: segments)
  | _ => none

end Route
end SignalHub.Server
