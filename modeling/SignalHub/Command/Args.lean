import SignalHub.Text.Decimal
import SignalHub.Text.Parts
import SignalHub.Uuid
import SignalHub.Word

/-! A command line has options, then a subcommand, then options of the subcommand. An option's
value is the next argument, unless that looks like an option, or is written in the same argument.
Arguments are looked at in order: the first that is wrong, or asks for help, settles what
happens. -/
namespace SignalHub.Command

inductive Action where
  | serve (listen : Option String)
  | token (user : Uuid) (seconds : Int)
  deriving DecidableEq, Repr

structure Invocation where
  config : Option String
  action : Action
  deriving DecidableEq, Repr

/-- What a user can ask to be told instead. -/
inductive Topic where
  | version
  | overview
  | serve
  | token
  | help
  deriving DecidableEq, Repr

inductive Request where
  | invoke (i : Invocation)
  | tell (topic : Topic)
  | misuse
  deriving DecidableEq, Repr

inductive Parameter where
  | config | listen | user | seconds
  deriving DecidableEq, Repr

/-- Where in a command line an argument stands. -/
inductive Place where
  | top
  | serve
  | token
  | help (topic : Topic)
  deriving DecidableEq, Repr

/-- What the arguments so far have said. A parameter that is pending still lacks its value; after two
hyphens only words may follow. -/
structure Progress where
  place : Place
  pending : Option Parameter
  wordsOnly : Bool
  config : Option String
  listen : Option String
  user : Option Uuid
  seconds : Option Int
  deriving DecidableEq, Repr

namespace Place

def long? : Place → String → Option Parameter
  | .top, "config" => some .config
  | .serve, "listen" => some .listen
  | .token, "user" => some .user
  | .token, "ttl-secs" => some .seconds
  | _, _ => none

def short? : Place → Char → Option Parameter
  | .top, 'c' => some .config
  | _, _ => none

def topic : Place → Topic
  | .top => .overview
  | .serve => .serve
  | .token => .token
  | .help topic => topic

end Place

/-- A number of 64 bits with a sign. -/
def integer? (text : String) : Option Int :=
  let value := match text.toList with
    | '-' :: digits => (Decimal.number? digits).map fun n => -(n : Int)
    | '+' :: digits => (Decimal.number? digits).map Int.ofNat
    | digits => (Decimal.number? digits).map Int.ofNat
  value.filter Word.isSigned

def defaultSeconds : Int := 3600

def looksLikeOption (arg : String) : Bool :=
  match arg.toList with
  | '-' :: _ :: _ => true
  | _ => false

namespace Progress

def start : Progress := ⟨.top, none, false, none, none, none, none⟩

/-- Either the arguments settle what happens, or there is more to read. -/
abbrev Step := Except Request Progress

/-- Gives a parameter its value, which it may have once. -/
def assign (p : Progress) (parameter : Parameter) (value : String) : Step :=
  let p := { p with pending := none }
  match parameter with
  | .config =>
    if p.config.isSome || value.isEmpty then .error .misuse else .ok { p with config := some value }
  | .listen => if p.listen.isSome then .error .misuse else .ok { p with listen := some value }
  | .user =>
    match p.user, Uuid.parse? value with
    | none, some user => .ok { p with user := some user }
    | _, _ => .error .misuse
  | .seconds =>
    match p.seconds, integer? value with
    | none, some seconds => .ok { p with seconds := some seconds }
    | _, _ => .error .misuse

def expect (p : Progress) (parameter : Parameter) : Option String → Step
  | some value => p.assign parameter value
  | none => .ok { p with pending := some parameter }

def longOption (p : Progress) (body : List Char) : Step :=
  let (name, attached) := Parts.cut '=' body
  match String.ofList name, attached, p.place with
  | "help", none, place => .error (.tell place.topic)
  | "version", none, .top => .error (.tell .version)
  | name, attached, place =>
    match place.long? name with
    | some parameter => p.expect parameter (attached.map String.ofList)
    | none => .error .misuse

/-- What follows an option's letter is its value, with or without an equals sign. -/
def attachedTo : List Char → Option String
  | [] => none
  | '=' :: value => some (String.ofList value)
  | value => some (String.ofList value)

def shortOption (p : Progress) (letter : Char) (body : List Char) : Step :=
  match letter, p.place with
  | 'h', place => .error (.tell place.topic)
  | 'V', .top => .error (.tell .version)
  | letter, place =>
    match place.short? letter with
    | some parameter => p.expect parameter (attachedTo body)
    | none => .error .misuse

/-- A word is the subcommand, or the one that help is asked for. -/
def word (p : Progress) (text : String) : Step :=
  match p.place, text with
  | .top, "serve" => .ok { p with place := .serve }
  | .top, "token" => .ok { p with place := .token }
  | .top, "help" => .ok { p with place := .help .overview }
  | .help .overview, "serve" => .ok { p with place := .help .serve }
  | .help .overview, "token" => .ok { p with place := .help .token }
  | .help .overview, "help" => .ok { p with place := .help .help }
  | _, _ => .error .misuse

def argument (p : Progress) (arg : String) : Step :=
  match arg.toList with
  | ['-', '-'] => .ok { p with wordsOnly := true }
  | '-' :: '-' :: body => p.longOption body
  | '-' :: letter :: body => p.shortOption letter body
  | _ => p.word arg

def isHelp : Place → Bool
  | .help _ => true
  | _ => false

def next (p : Progress) (arg : String) : Step :=
  match p.pending with
  | some parameter =>
    if looksLikeOption arg then .error .misuse else p.assign parameter arg
  | none =>
    if p.wordsOnly then .error .misuse
    else if isHelp p.place then p.word arg
    else p.argument arg

/-- What the arguments ask for when there are no more. -/
def finish (p : Progress) : Request :=
  match p.pending, p.place, p.user with
  | some _, _, _ => .misuse
  | none, .serve, _ => .invoke ⟨p.config, .serve p.listen⟩
  | none, .token, some user => .invoke ⟨p.config, .token user (p.seconds.getD defaultSeconds)⟩
  | none, .help topic, _ => .tell topic
  | none, _, _ => .misuse

end Progress

/-- What a command line asks for. -/
def request (args : List String) : Request :=
  match args.foldlM Progress.next .start with
  | .ok p => p.finish
  | .error settled => settled

end SignalHub.Command
