import SignalHub.Command.Args
import SignalHub.Command.Path
import SignalHub.Config.Load
import SignalHub.Daemon
import SignalHub.Token.Issue

/-! A command needs its configuration first, with the environment and its own options laid over it.
It ends by printing a token, by serving until it is told to stop, or with a failure that is reported
with its causes. What the machine answers is handed in. -/
namespace SignalHub.Command

/-- What a command finds on the machine: the environment, files, why a directory cannot be made, a log
not be opened or an address not be listened on, and the time. -/
structure Machine where
  environment : String → Option String
  contents : String → Except Config.FileFault (List UInt8)
  directoryFault : String → Option String
  logFault : String → Option String
  bindFault : String → Option String
  now : Int

/-- A failure has its causes, outermost first. A server has what it notes before and after it is told
to stop, and the log that it writes to. -/
inductive Outcome where
  | told (line : String)
  | token (text : String)
  | served (log : Option String) (before after : List Daemon.Note)
  | failed (causes : List String)
  | misused
  | panicked (message : String)
  deriving DecidableEq, Repr

def Outcome.exitCode : Outcome → Nat
  | .told _ | .token _ | .served .. => 0
  | .failed _ => 1
  | .misused => 2
  | .panicked _ => 101

/-- The causes under a headline: one stands alone, more are counted from zero. -/
def causeLines : List String → List String
  | [] => []
  | [cause] => ["", "Caused by:", "    " ++ cause]
  | causes =>
    "" :: "Caused by:" ::
      causes.mapIdx fun i cause => "    " ++ Decimal.text i ++ ": " ++ cause

/-- How a failure is told. -/
def failureLines : List String → List String
  | [] => []
  | headline :: causes => ("Error: " ++ headline) :: causeLines causes

def Topic.line : Topic → String
  | .version => "devicelink " ++ Server.version
  | .overview => "Usage: devicelink [OPTIONS] <COMMAND>"
  | .serve => "Run the signaling server"
  | .token => "Print an access token for an identity"
  | .help => "Print this message or the help of the given subcommand(s)"

/-- The address to listen on that a command gives replaces the one of the environment. -/
def overrides (m : Machine) (action : Action) : Config.Overrides :=
  let fromEnvironment := Config.Overrides.ofEnvironment m.environment
  match action with
  | .serve (some listen) => { fromEnvironment with listenAddress := some listen }
  | _ => fromEnvironment

def configuration (m : Machine) (i : Invocation) : Except Config.Error Config :=
  Config.load (i.config.map fun path => ⟨path, m.contents path⟩) (overrides m i.action)

/-- Why the log cannot be written to. Its directory is made first. -/
def logCauses (m : Machine) (path : String) : Option (List String) :=
  ((Path.parent? path).bind fun parent =>
    (m.directoryFault parent).map fun fault => ["create " ++ parent, fault]) <|>
  (m.logFault path).map fun fault => ["open " ++ path, fault]

def serveConfig (m : Machine) (c : Config) : Outcome :=
  match c.logPath.bind (logCauses m), m.bindFault c.listenAddress with
  | some causes, _ => .failed causes
  | none, some fault => .failed ["bind " ++ c.listenAddress, fault]
  | none, none =>
    match Daemon.start c with
    | .error e => .panicked e.message
    | .ok _ => .served c.logPath (Daemon.notesOfStart c) Daemon.notesOfStop

def invoke (m : Machine) (i : Invocation) : Outcome :=
  match configuration m i with
  | .error e => .failed e.causes
  | .ok c =>
    match i.action with
    | .serve _ => serveConfig m c
    | .token user seconds =>
      match Token.issue c.secret m.now user seconds with
      | .ok text => .token text
      | .error e => .panicked e.message

def run (m : Machine) (args : List String) : Outcome :=
  match request args with
  | .misuse => .misused
  | .tell topic => .told topic.line
  | .invoke i => invoke m i

end SignalHub.Command
