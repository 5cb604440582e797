import SignalHub.Json.Token

/-! The tokens of a JSON text are read one by one against a stack of the arrays and objects that are
still open, so nesting costs no depth here. `want` says what may come next. -/
namespace SignalHub.Json

open Utf8 (Letter)

/-- An array or object that is still open, with its contents last first. -/
inductive Frame where
  | array (items : List Json)
  | object (members : List (Option String × Json)) (name : Option String)
  deriving Repr

inductive Want where
  | value
  | itemOrEnd
  | memberOrEnd
  | member
  | colon
  | commaOrEnd
  | nothing (result : Json)
  deriving Repr

structure Reading where
  frames : List Frame
  want : Want
  deriving Repr

namespace Reading

def start : Reading := ⟨[], .value⟩

/-- A finished value goes into the container that is open, or is the result. -/
def add (frames : List Frame) (v : Json) : Reading :=
  match frames with
  | [] => ⟨[], .nothing v⟩
  | .array items :: rest => ⟨.array (v :: items) :: rest, .commaOrEnd⟩
  | .object members name :: rest => ⟨.object ((name, v) :: members) name :: rest, .commaOrEnd⟩

def beginValue (frames : List Frame) : Token → Option Reading
  | .mark .arrayOpen => some ⟨.array [] :: frames, .itemOrEnd⟩
  | .mark .objectOpen => some ⟨.object [] none :: frames, .memberOrEnd⟩
  | .mark _ => none
  | .null => some (add frames .null)
  | .bool b => some (add frames (.bool b))
  | .number n => some (add frames (.number n))
  | .text s => some (add frames (.text s))

def beginMember (frames : List Frame) (name : Option String) : Option Reading :=
  match frames with
  | .object members _ :: rest => some ⟨.object members name :: rest, .colon⟩
  | _ => none

def step (r : Reading) (token : Token) : Option Reading :=
  match r.want, token, r.frames with
  | .itemOrEnd, .mark .arrayClose, .array items :: rest => some (add rest (.array items.reverse))
  | .itemOrEnd, token, frames => beginValue frames token
  | .memberOrEnd, .mark .objectClose, .object members _ :: rest =>
    some (add rest (.object members.reverse))
  | .memberOrEnd, .text name, frames => beginMember frames name
  | .member, .text name, frames => beginMember frames name
  | .colon, .mark .colon, frames => some ⟨frames, .value⟩
  | .commaOrEnd, .mark .comma, .array items :: rest => some ⟨.array items :: rest, .value⟩
  | .commaOrEnd, .mark .comma, .object members name :: rest =>
    some ⟨.object members name :: rest, .member⟩
  | .commaOrEnd, .mark .arrayClose, .array items :: rest => some (add rest (.array items.reverse))
  | .commaOrEnd, .mark .objectClose, .object members _ :: rest =>
    some (add rest (.object members.reverse))
  | .value, token, frames => beginValue frames token
  | _, _, _ => none

def result? (r : Reading) : Option Json :=
  match r.want with
  | .nothing v => some v
  | _ => none

end Reading

def ofTokens? (tokens : List Token) : Option Json :=
  (tokens.foldlM Reading.step .start).bind Reading.result?

/-- The value that a text of letters stands for. -/
def ofLetters? (letters : List Letter) : Option Json := (tokens? letters).bind ofTokens?

def parse? (text : String) : Option Json := ofLetters? (Utf8.letters text)

end SignalHub.Json
