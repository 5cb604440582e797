/-! Each kind of message has one name on the wire. -/
namespace SignalHub.Message

inductive Kind where
  | deviceOnline | deviceOffline | deviceList | streamStart | streamEnd
  | offer | answer | candidate | error | ping | pong
  deriving DecidableEq, Repr

namespace Kind

def name : Kind → String
  | .deviceOnline => "device:online"
  | .deviceOffline => "device:offline"
  | .deviceList => "device:list"
  | .streamStart => "stream:start"
  | .streamEnd => "stream:end"
  | .offer => "webrtc:offer"
  | .answer => "webrtc:answer"
  | .candidate => "webrtc:candidate"
  | .error => "error"
  | .ping => "ping"
  | .pong => "pong"

def all : List Kind :=
  [.deviceOnline, .deviceOffline, .deviceList, .streamStart, .streamEnd, .offer, .answer,
    .candidate, .error, .ping, .pong]

def parse? (text : String) : Option Kind := all.find? fun kind => kind.name == text

theorem parse?_name (kind : Kind) : parse? kind.name = some kind := by
  cases kind <;> decide

end Kind
end SignalHub.Message
