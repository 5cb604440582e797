import SignalHub.Device
import SignalHub.Json.Printer
import SignalHub.Json.Reader
import SignalHub.Message.Kind

/-! Everything the hub sends and relays. A message is written as an object with its kind's name and
its payload; keepalive messages have no payload, or an explicit null one. -/
namespace SignalHub

/-- Offers and answers have one shape. -/
structure Sdp where
  sender : Uuid
  target : Uuid
  sdp : String
  deriving DecidableEq, Repr

structure Candidate where
  sender : Uuid
  target : Uuid
  candidate : String
  lineIndex : Option (Fin 65536)
  mid : Option String
  deriving DecidableEq, Repr

structure StreamStart where
  stream : Uuid
  source : Uuid
  kind : String
  quality : String
  deriving DecidableEq, Repr

/-- A report to a client that its frame was refused. -/
structure Report where
  code : String
  message : String
  deriving DecidableEq, Repr

/-- What a device asks to be passed on to a sibling. -/
inductive Relay where
  | offer (payload : Sdp)
  | answer (payload : Sdp)
  | candidate (payload : Candidate)
  deriving DecidableEq, Repr

inductive Message where
  | deviceOnline (device : Device.Info)
  | deviceOffline (device : Uuid)
  | deviceList (devices : List Device.Info)
  | streamStart (start : StreamStart)
  | streamEnd (stream : Uuid)
  | relay (r : Relay)
  | error (report : Report)
  | ping (nullPayload : Bool)
  | pong (nullPayload : Bool)
  deriving DecidableEq, Repr

namespace Sdp

def toJson (p : Sdp) : Json :=
  .ofMembers [("from_device_id", p.sender.toJson), ("to_device_id", p.target.toJson),
    ("sdp", .ofString p.sdp)]

def ofJson? (v : Json) : Option Sdp := do
  let fields ← v.fields? ["from_device_id", "to_device_id", "sdp"]
  let sender ← fields.withDefault "from_device_id" Uuid.ofJson? .nil
  let target ← fields.withDefault "to_device_id" Uuid.ofJson? .nil
  let sdp ← fields.required "sdp" Json.string?
  return ⟨sender, target, sdp⟩

end Sdp

namespace Candidate

def lineIndex? (v : Json) : Option (Fin 65536) :=
  match v.integer? with
  | some (.ofNat n) => if h : n < 65536 then some ⟨n, h⟩ else none
  | _ => none

def toJson (p : Candidate) : Json :=
  .ofMembers ([("from_device_id", p.sender.toJson), ("to_device_id", p.target.toJson),
    ("candidate", .ofString p.candidate)] ++
    (p.lineIndex.map fun i => ("sdp_mline_index", Json.ofNat i.val)).toList ++
    (p.mid.map fun m => ("sdp_mid", Json.ofString m)).toList)

def ofJson? (v : Json) : Option Candidate := do
  let fields ← v.fields?
    ["from_device_id", "to_device_id", "candidate", "sdp_mline_index", "sdp_mid"]
  let sender ← fields.withDefault "from_device_id" Uuid.ofJson? .nil
  let target ← fields.withDefault "to_device_id" Uuid.ofJson? .nil
  let candidate ← fields.required "candidate" Json.string?
  let lineIndex ← fields.withDefault "sdp_mline_index" (Json.nullable? lineIndex?) none
  let mid ← fields.withDefault "sdp_mid" (Json.nullable? Json.string?) none
  return ⟨sender, target, candidate, lineIndex, mid⟩

end Candidate

namespace StreamStart

def toJson (s : StreamStart) : Json :=
  .ofMembers [("stream_id", s.stream.toJson), ("source_device_id", s.source.toJson),
    ("stream_type", .ofString s.kind), ("quality", .ofString s.quality)]

def ofJson? (v : Json) : Option StreamStart := do
  let fields ← v.fields? ["stream_id", "source_device_id", "stream_type", "quality"]
  let stream ← fields.required "stream_id" Uuid.ofJson?
  let source ← fields.required "source_device_id" Uuid.ofJson?
  let kind ← fields.required "stream_type" Json.string?
  let quality ← fields.required "quality" Json.string?
  return ⟨stream, source, kind, quality⟩

end StreamStart

namespace Report

def toJson (r : Report) : Json :=
  .ofMembers [("code", .ofString r.code), ("message", .ofString r.message)]

def ofJson? (v : Json) : Option Report := do
  let fields ← v.fields? ["code", "message"]
  let code ← fields.required "code" Json.string?
  let message ← fields.required "message" Json.string?
  return ⟨code, message⟩

end Report

namespace Relay

def kind : Relay → Message.Kind
  | .offer _ => .offer
  | .answer _ => .answer
  | .candidate _ => .candidate

def sender : Relay → Uuid
  | .offer p | .answer p => p.sender
  | .candidate p => p.sender

def target : Relay → Uuid
  | .offer p | .answer p => p.target
  | .candidate p => p.target

/-- The same request with the sender's true identifier. -/
def sentBy (device : Uuid) : Relay → Relay
  | .offer p => .offer { p with sender := device }
  | .answer p => .answer { p with sender := device }
  | .candidate p => .candidate { p with sender := device }

def payload : Relay → Json
  | .offer p | .answer p => p.toJson
  | .candidate p => p.toJson

end Relay

namespace Message

def kind : Message → Kind
  | .deviceOnline _ => .deviceOnline
  | .deviceOffline _ => .deviceOffline
  | .deviceList _ => .deviceList
  | .streamStart _ => .streamStart
  | .streamEnd _ => .streamEnd
  | .relay r => r.kind
  | .error _ => .error
  | .ping _ => .ping
  | .pong _ => .pong

def explicitNull (nullPayload : Bool) : Option Json := if nullPayload then some .null else none

def payload? : Message → Option Json
  | .deviceOnline device => some (.ofMembers [("device", device.toJson)])
  | .deviceOffline device => some (.ofMembers [("device_id", device.toJson)])
  | .deviceList devices => some (.ofMembers [("devices", .array (devices.map Device.Info.toJson))])
  | .streamStart start => some start.toJson
  | .streamEnd stream => some (.ofMembers [("stream_id", stream.toJson)])
  | .relay r => some r.payload
  | .error report => some report.toJson
  | .ping nullPayload | .pong nullPayload => explicitNull nullPayload

def toJson (m : Message) : Json :=
  .ofMembers (("type", .ofString m.kind.name) :: (m.payload?.map fun p => ("payload", p)).toList)

/-- The frame that carries a message. -/
def encode (m : Message) : String := m.toJson.render

/-- A payload that is a record with one field. -/
def single? (name : String) (read : Json → Option α) (v : Json) : Option α := do
  let fields ← v.fields? [name]
  fields.required name read

/-- The message of a kind with this payload; keepalive messages do not look at it. -/
def ofPayload? (kind : Kind) (v : Json) : Option Message :=
  match kind with
  | .deviceOnline => (single? "device" Device.Info.ofJson? v).map .deviceOnline
  | .deviceOffline => (single? "device_id" Uuid.ofJson? v).map .deviceOffline
  | .deviceList => (single? "devices" (Json.list? Device.Info.ofJson?) v).map .deviceList
  | .streamStart => (StreamStart.ofJson? v).map .streamStart
  | .streamEnd => (single? "stream_id" Uuid.ofJson? v).map .streamEnd
  | .offer => (Sdp.ofJson? v).map fun p => .relay (.offer p)
  | .answer => (Sdp.ofJson? v).map fun p => .relay (.answer p)
  | .candidate => (Candidate.ofJson? v).map fun p => .relay (.candidate p)
  | .error => (Report.ofJson? v).map .error
  | .ping => some (.ping true)
  | .pong => some (.pong true)

/-- The answer to a client's ping. -/
def reply : Message := .pong false

end Message
end SignalHub
