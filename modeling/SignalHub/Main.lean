import SignalHub.Command.Run
import Std.Time.DateTime.Timestamp

/-! The command line asks the machine what a command needs to know, runs the command, and prints how
it ended. A server lives until its input ends; connections reach it from the outside through
`Server`. -/
namespace SignalHub.Command

/-- Why a file could not be read or opened. -/
def faultOf : IO.Error → Config.FileFault
  | .noFileOrDirectory .. => .notFound
  | .inappropriateType _ 21 _ => .isDirectory
  | .inappropriateType _ 20 _ => .notDirectory
  | e => .other (toString e)

def attempt (act : IO Unit) : IO (Option String) := do
  match ← act.toBaseIO with
  | .ok () => return none
  | .error e => return some (faultOf e).message

def readContents (path : String) : IO (Except Config.FileFault (List UInt8)) := do
  match ← (IO.FS.readBinFile path).toBaseIO with
  | .ok bytes => return .ok bytes.toList
  | .error e => return .error (faultOf e)

def makeDirectory (path : String) : IO Unit :=
  unless path.isEmpty do IO.FS.createDirAll path

/-- The machine before anything is written to a log. -/
def inspect (request : Request) : IO Machine := do
  let listen ← IO.getEnv Config.Overrides.listenVariable
  let secret ← IO.getEnv Config.Overrides.secretVariable
  let contents ← match request with
    | .invoke ⟨some path, _⟩ => readContents path
    | _ => pure (.error .notFound)
  let time ← Std.Time.Timestamp.now
  return {
    environment := fun name =>
      if name = Config.Overrides.listenVariable then listen
      else if name = Config.Overrides.secretVariable then secret
      else none
    contents := fun _ => contents
    directoryFault := fun _ => none
    logFault := fun _ => none
    bindFault := fun _ => none
    now := time.toSecondsSinceUnixEpoch.val }

/-- Makes the log that a server would write to, and learns what stands in the way. -/
def prepareLog (m : Machine) (path : String) : IO Machine := do
  let directory ← match Path.parent? path with
    | some parent => attempt (makeDirectory parent)
    | none => pure none
  let log ← match directory with
    | some _ => pure none
    | none => attempt (IO.FS.writeFile path "")
  return { m with directoryFault := fun _ => directory, logFault := fun _ => log }

def note (log : Option String) (notes : List Daemon.Note) : IO Unit := do
  for note in notes do
    IO.println note.line
    match log with
    | some path => IO.FS.withFile path .append fun h => h.putStrLn note.line
    | none => pure ()

partial def awaitEnd (input : IO.FS.Stream) : IO Unit := do
  unless (← input.getLine).isEmpty do awaitEnd input

def report : Outcome → IO Unit
  | .told line => IO.println line
  | .token text => IO.println text
  | .served log before after => do
    note log before
    awaitEnd (← IO.getStdin)
    note log after
  | .failed causes => for line in failureLines causes do IO.eprintln line
  | .misused => IO.eprintln Topic.overview.line
  | .panicked message => IO.eprintln message

def runCommandLine (args : List String) : IO UInt32 := do
  let m ← inspect (request args)
  let m ← match run m args with
    | .served (some path) .. => prepareLog m path
    | _ => pure m
  let outcome := run m args
  report outcome
  return outcome.exitCode.toUInt32

end SignalHub.Command

def main (args : List String) : IO UInt32 := SignalHub.Command.runCommandLine args
