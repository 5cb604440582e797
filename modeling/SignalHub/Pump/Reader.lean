import SignalHub.Hub.Deliver
import SignalHub.Settings

/-! Frames are handled in the order in which they arrive. Text is handled as text, and so are bytes
that are text; pings and pongs count only as signs of life. Reading ends when the peer closes or
fails, sends too many bytes at once, or has been silent for too long: each frame pushes the deadline
forward. -/
namespace SignalHub

/-- What arrives on a socket. -/
inductive Frame where
  | text (raw : String)
  | binary (bytes : List UInt8)
  | ping
  | pong
  | close
  | failure
  | finish
  deriving DecidableEq, Repr

namespace Frame

/-- The frame ends the reading. -/
def terminates (s : Settings) : Frame → Bool
  | .close | .failure | .finish => true
  | .binary bytes => bytes.length > s.maxMessageBytes
  | _ => false

/-- What a frame does that does not end the reading. -/
def handle (h : Hub) (id : ConnId) : Frame → Hub
  | .text raw => h.handleText id raw
  | .binary bytes =>
    match Utf8.text? bytes with
    | some raw => h.handleText id raw
    | none => h.send id (.message (.error Inbound.Refusal.notAnEnvelope.report))
  | _ => h

end Frame

/-- A reader waits for a frame until its deadline, or has ended. -/
inductive Reader where
  | reading (deadline : Nat)
  | ended
  deriving DecidableEq, Repr

namespace Reader

def start (s : Settings) (now : Nat) : Reader := .reading (now + s.pongWait)

/-- A frame arrives. -/
def receive (s : Settings) (now : Nat) (id : ConnId) (f : Frame) (h : Hub) : Reader → Hub × Reader
  | .ended => (h, .ended)
  | .reading _ =>
    if f.terminates s then (h, .ended) else (f.handle h id, .reading (now + s.pongWait))

/-- No frame has arrived so far. -/
def wait (now : Nat) : Reader → Reader
  | .reading deadline => if deadline ≤ now then .ended else .reading deadline
  | .ended => .ended

end Reader
end SignalHub
