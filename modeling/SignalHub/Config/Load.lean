import SignalHub.Config.Finish
import SignalHub.Json.Reader

/-! A configuration comes from a file, or from the defaults when there is none. The file's contents
are handed in, or the reason why it could not be read. -/
namespace SignalHub.Config

inductive FileFault where
  | notFound | isDirectory | notDirectory | notUtf8 | other (text : String)
  deriving DecidableEq, Repr

def FileFault.message : FileFault → String
  | .notFound => "No such file or directory (os error 2)"
  | .isDirectory => "Is a directory (os error 21)"
  | .notDirectory => "Not a directory (os error 20)"
  | .notUtf8 => "stream did not contain valid UTF-8"
  | .other text => text

inductive Error where
  | unreadable (path : String) (fault : FileFault)
  | notConfig
  | flawed (flaw : Flaw)
  deriving DecidableEq, Repr

namespace Error

/-- What is wrong, from the outermost cause to the innermost. -/
def causes : Error → List String
  | .unreadable path fault => ["read config " ++ path, fault.message]
  | .notConfig => ["parse config json", "<json>"]
  | .flawed flaw => flaw.causes

def message (e : Error) : String := ": ".intercalate e.causes

end Error

structure File where
  path : String
  contents : Except FileFault (List UInt8)

def decode (file : File) : Except Error Config :=
  match file.contents with
  | .error fault => .error (.unreadable file.path fault)
  | .ok bytes =>
    match Utf8.text? bytes with
    | none => .error (.unreadable file.path .notUtf8)
    | some text =>
      match (Json.parse? text).bind ofJson? with
      | some config => .ok { config with path := some file.path }
      | none => .error .notConfig

def load (file : Option File) (o : Overrides) : Except Error Config := do
  let config ← match file with
    | some file => decode file
    | none => .ok standard
  (config.finish o).mapError .flawed

end SignalHub.Config
