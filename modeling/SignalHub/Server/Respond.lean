import SignalHub.Config.Basic
import SignalHub.Http.Response
import SignalHub.Server.Route
import SignalHub.Token.Bearer
import SignalHub.Token.Verify
import SignalHub.World.Actions

/-! Requests to protected routes are let in only with a token that verifies, whatever their method.
What a user is told about devices depends on that user's own registrations alone. A request to
upgrade to a websocket is checked completely before anything is done for it. -/
namespace SignalHub

structure Server where
  world : World
  secret : String
  ice : IceServers

namespace Server

open Http (Request Response Header)

/-- The time of a request, in seconds and as it is written. -/
structure Moment where
  seconds : Int
  text : String
  deriving DecidableEq, Repr

/-- What a request gets: a response, or a websocket for a device of the user. -/
inductive Answer where
  | response (r : Response)
  | websocket (user : Uuid) (record : Device.Record)
  deriving DecidableEq, Repr

def version : String := "0.1.0"

/-- The user who sends a request. -/
def user (s : Server) (moment : Moment) (r : Request) : Except Access.Error Uuid := do
  Token.verify s.secret moment.seconds (← Token.ofRequest r)

def unauthorized (e : Access.Error) : Response :=
  .json 401 (.ofMembers [("code", .ofString "UNAUTHORIZED"), ("message", .ofString e.message)])

def health (s : Server) (moment : Moment) : Response :=
  .json 200 (.ofMembers [
    ("status", .ofString (if s.world.hub.stopping then "stopping" else "ok")),
    ("ts", .ofString moment.text), ("version", .ofString version),
    ("connections", .ofNat s.world.hub.connectionCount), ("hub", s.world.hub.counters.toJson)])

def devicesOnline (s : Server) (user : Uuid) : Response :=
  .json 200 (.ofMembers
    [("devices", .array ((s.world.hub.onlineDevices user).map Device.Info.toJson))])

def segmentId? (segment : List UInt8) : Option Uuid :=
  (Utf8.text? (Percent.decode segment)).bind Uuid.parse?

def deviceOnline (s : Server) (user : Uuid) (segment : List UInt8) : Response :=
  match segmentId? segment with
  | none => .bare 400
  | some id => .json 200 (.ofMembers
      [("device_id", id.toJson), ("online", .bool (s.world.hub.isOnline user id))])

/-- The device parameter of a query; a query that repeats it cannot be read. -/
def deviceParameter? (r : Request) : Option (Option String) :=
  match (Form.parse (r.uri.query.getD [])).filter fun p => p.1 == "device_id" with
  | [] => some none
  | [p] => some (some p.2)
  | _ => none

def lowerBytes (bytes : List UInt8) : List Char :=
  bytes.map fun b => (Char.ofNat b.toNat).toLower

def headerIs (r : Request) (name value : String) : Bool :=
  (r.header? name).any fun h => lowerBytes h.value == value.toList

def containsList (part : List Char) : List Char → Bool
  | [] => part.isEmpty
  | c :: rest => part.isPrefixOf (c :: rest) || containsList part rest

def headerContains (r : Request) (name value : String) : Bool :=
  (r.header? name).any fun h =>
    (Utf8.text? h.value).isSome && containsList value.toList (lowerBytes h.value)

/-- Why a request is no request for a websocket, in the order in which it is looked at; `upgradable`
tells whether its connection could be handed over. -/
def upgradeRefusal? (upgradable : Bool) (r : Request) : Option Nat :=
  if r.method != "GET" then some 405
  else if !headerContains r "connection" "upgrade" then some 400
  else if !headerIs r "upgrade" "websocket" then some 400
  else if !headerIs r "sec-websocket-version" "13" then some 400
  else if (r.header? "sec-websocket-key").isNone then some 400
  else if !upgradable then some 426
  else none

/-- The record of the device that a user asks to connect. -/
def ownDevice (s : Server) (user : Uuid) (parameter : Option String) :
    Except Response Device.Record :=
  match parameter.filter fun raw => !Blank.blank raw with
  | none => .error (.error 400 "device_id query parameter required")
  | some raw =>
    match Uuid.parse? (Blank.trim raw) with
    | none => .error (.error 400 "invalid device_id")
    | some id =>
      if s.world.directoryFails then .error (.error 500 "internal error")
      else match s.world.directory.find? id with
        | none => .error (.error 404 "device not found")
        | some record =>
          if record.user = user then .ok record
          else .error (.error 403 "device not owned by user")

def websocket (s : Server) (upgradable : Bool) (user : Uuid) (r : Request) : Answer :=
  match deviceParameter? r with
  | none => .response (.bare 400)
  | some parameter =>
    match upgradeRefusal? upgradable r with
    | some status => .response (.bare status)
    | none =>
      match s.ownDevice user parameter with
      | .error refusal => .response refusal
      | .ok record => .websocket user record

def publicAnswer (s : Server) (moment : Moment) : Route → Response
  | .ping => ⟨200, .plain "pong"⟩
  | _ => s.health moment

def protectedAnswer (s : Server) (upgradable : Bool) (user : Uuid) (r : Request) : Route → Answer
  | .iceServers => .response (.json 200 s.ice.toJson)
  | .devicesOnline => .response (s.devicesOnline user)
  | .deviceOnline segment => .response (s.deviceOnline user segment)
  | _ => s.websocket upgradable user r

/-- All routes are for reading. -/
def readable (r : Request) : Bool := r.method == "GET" || r.method == "HEAD"

def routeAnswer (s : Server) (moment : Moment) (upgradable : Bool) (r : Request) (route : Route) :
    Answer :=
  if route.isProtected then
    match s.user moment r with
    | .error e => .response (unauthorized e)
    | .ok user =>
      if readable r then s.protectedAnswer upgradable user r route else .response (.bare 405)
  else if readable r then .response (s.publicAnswer moment route)
  else .response (.bare 405)

def fullAnswer (s : Server) (moment : Moment) (upgradable : Bool) (r : Request) : Answer :=
  match Route.ofPath? r.uri.path with
  | none => .response (.bare 404)
  | some route => s.routeAnswer moment upgradable r route

/-- What a request gets; a request for the head gets no body. -/
def answer (s : Server) (moment : Moment) (upgradable : Bool) (r : Request) : Answer :=
  match s.fullAnswer moment upgradable r with
  | .response response =>
    .response (if r.method == "HEAD" then response.headOnly else response)
  | granted => granted

end Server
end SignalHub
