import SignalHub.Message.Basic

/-! A client may ping the hub or ask it to relay to a sibling. Any other frame is refused for one of
three reasons, and the client is told which. The frame's envelope is read first, with a payload of
any shape in it; an absent payload counts as null. -/
namespace SignalHub

inductive Inbound where
  | ping
  | relay (r : Relay)
  deriving DecidableEq, Repr

namespace Inbound

/-- The three kinds of relay requests. -/
inductive RelayKind where
  | offer | answer | candidate
  deriving DecidableEq, Repr

def RelayKind.name : RelayKind → String
  | .offer => "offer"
  | .answer => "answer"
  | .candidate => "candidate"

inductive Refusal where
  | notAnEnvelope
  | badPayload (kind : RelayKind)
  | unknownType (name : String)
  deriving DecidableEq, Repr

namespace Refusal

def code : Refusal → String
  | .notAnEnvelope => "INVALID_MESSAGE"
  | .badPayload _ => "INVALID_PAYLOAD"
  | .unknownType _ => "UNKNOWN_TYPE"

def message : Refusal → String
  | .notAnEnvelope => "failed to parse message"
  | .badPayload kind => "invalid " ++ kind.name ++ " payload"
  | .unknownType name => "unknown message type: " ++ name

def report (r : Refusal) : Report := ⟨r.code, r.message⟩

end Refusal

structure Envelope where
  kind : String
  payload : Json
  deriving Repr

/-- How deep a payload may nest: with the envelope, 127 arrays and objects. -/
def payloadRoom : Nat := 126

def Envelope.ofJson? (v : Json) : Option Envelope := do
  let fields ← v.fields? ["type", "payload"]
  let kind ← fields.required "type" Json.string?
  let payload ← fields.withDefault "payload" (Json.keep payloadRoom) .null
  return ⟨kind, payload⟩

def payload (kind : RelayKind) (read : Json → Option Relay) (v : Json) : Except Refusal Inbound :=
  match read v with
  | some r => .ok (.relay r)
  | none => .error (.badPayload kind)

def ofEnvelope (e : Envelope) : Except Refusal Inbound :=
  match Message.Kind.parse? e.kind with
  | some .ping => .ok .ping
  | some .offer => payload .offer (fun v => (Sdp.ofJson? v).map .offer) e.payload
  | some .answer => payload .answer (fun v => (Sdp.ofJson? v).map .answer) e.payload
  | some .candidate => payload .candidate (fun v => (Candidate.ofJson? v).map .candidate) e.payload
  | _ => .error (.unknownType e.kind)

/-- What a client asks for with a frame. -/
def decode (raw : String) : Except Refusal Inbound :=
  match (Json.parse? raw).bind Envelope.ofJson? with
  | some envelope => ofEnvelope envelope
  | none => .error .notAnEnvelope

end Inbound
end SignalHub
