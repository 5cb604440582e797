import SignalHub.Config.Basic
import SignalHub.Net.SocketAddress
import SignalHub.Net.Url
import SignalHub.Text.Blank
import SignalHub.Text.Quoted

/-! A configuration is overridden, trimmed and checked, in this order. Blank overrides do not count.
The checks come in the order of the fields, and the first that fails is reported. -/
namespace SignalHub.Config

structure Overrides where
  listenAddress : Option String
  secret : Option String
  deriving DecidableEq, Repr

namespace Overrides

def none : Overrides := ⟨.none, .none⟩

def given (v : Option String) : Option String := v.filter fun s => !Blank.blank s

def listenVariable : String := "DEVICELINK_LISTEN_ADDR"
def secretVariable : String := "DEVICELINK_JWT_SECRET"

/-- The overrides that an environment asks for. -/
def ofEnvironment (value? : String → Option String) : Overrides :=
  ⟨given (value? listenVariable), given (value? secretVariable)⟩

end Overrides

/-- Which list of servers an entry is in. -/
inductive IceList where
  | stun | turn
  deriving DecidableEq, Repr

def IceList.name : IceList → String
  | .stun => "ice.stun_servers"
  | .turn => "ice.turn_servers"

def IceList.schemes : IceList → List String
  | .stun => ["stun", "stuns"]
  | .turn => ["turn", "turns"]

inductive Flaw where
  | listenAddress (text : String)
  | blankSecret
  | zeroCapacity
  | zeroDeadline
  | zeroMessageSize
  | iceUrl (list : IceList) (url : String) (cause : Net.Url.Error)
  | iceScheme (list : IceList) (url : String)
  deriving DecidableEq, Repr

namespace Flaw

/-- What is wrong, from the outermost cause to the innermost. -/
def causes : Flaw → List String
  | .listenAddress text =>
    ["listen_addr " ++ Quoted.quote text, "invalid socket address syntax"]
  | .blankSecret =>
    ["jwt_secret is empty (set it in the config or " ++ Overrides.secretVariable ++ ")"]
  | .zeroCapacity => ["hub.send_queue_capacity must be positive"]
  | .zeroDeadline => ["hub deadlines must be at least one second"]
  | .zeroMessageSize => ["hub.max_message_bytes must be positive"]
  | .iceUrl list url cause =>
    [list.name, "invalid ice url " ++ Quoted.quote url, cause.message]
  | .iceScheme list url =>
    [list.name, "ice url " ++ Quoted.quote url ++ " must use one of " ++
      Quoted.quoteList list.schemes]

end Flaw

def overridden (c : Config) (o : Overrides) : Config :=
  { c with
    listenAddress := (Overrides.given o.listenAddress).getD c.listenAddress
    secret := (Overrides.given o.secret).getD c.secret }

/-- The entries without the blanks around them, and without blank entries. -/
def trimmedEntries (entries : List String) : List String :=
  (entries.map Blank.trim).filter fun s => !s.isEmpty

def trimmed (c : Config) : Config :=
  { c with
    listenAddress := Blank.trim c.listenAddress
    ice := { c.ice with stun := trimmedEntries c.ice.stun, turn := trimmedEntries c.ice.turn } }

def checkIce (list : IceList) (url : String) : Except Flaw Unit :=
  match Net.Url.scheme url with
  | .error cause => .error (.iceUrl list url cause)
  | .ok scheme => if scheme ∈ list.schemes then .ok () else .error (.iceScheme list url)

def check (c : Config) : Except Flaw Unit := do
  if (Net.SocketAddress.parse? c.listenAddress).isNone then throw (.listenAddress c.listenAddress)
  if Blank.blank c.secret then throw .blankSecret
  if c.hub.capacity = 0 then throw .zeroCapacity
  if c.hub.pongWait = 0 ∨ c.hub.writeWait = 0 then throw .zeroDeadline
  if c.hub.maxMessageBytes = 0 then throw .zeroMessageSize
  c.ice.stun.forM (checkIce .stun)
  c.ice.turn.forM (checkIce .turn)

def finish (c : Config) (o : Overrides) : Except Flaw Config := do
  let finished := (c.overridden o).trimmed
  finished.check
  return finished

end SignalHub.Config
