import SignalHub.Json.Reader
import SignalHub.Json.Record
import SignalHub.Word

/-! A token names its subject and the second after which it is expired. Claims are read twice:
once for what the program uses, and once for the rules that hold for all tokens. An audience is
refused, since none is expected; when a token starts to be valid is not looked at, but must be
readable past. -/
namespace SignalHub.Token

structure Claims where
  subject : String
  expiry : Int
  kind : String
  deriving DecidableEq, Repr

namespace Claims

def toJson (c : Claims) : Json :=
  .ofMembers ([("sub", .ofString c.subject), ("exp", .ofInt c.expiry)] ++
    if c.kind.isEmpty then [] else [("type", .ofString c.kind)])

def expiry? (v : Json) : Option Int :=
  v.integer?.filter Word.isSigned

def ofJson? (v : Json) : Option Claims := do
  let fields ← v.fields? ["sub", "exp", "type"]
  let subject ← fields.required "sub" Json.string?
  let expiry ← fields.required "exp" expiry?
  let kind ← fields.withDefault "type" Json.string? ""
  return ⟨subject, expiry, kind⟩

/-- A value that a reader who wants a number can step over. -/
def skippable : Json → Bool
  | .null | .bool _ | .number _ => true
  | .text s => s.isSome
  | .array items => items.isEmpty
  | .object members => members.isEmpty

/-- How deep a claim may nest that is kept to find out what it is. -/
def room : Nat := 126

/-- A claim of any shape that can be kept, or a number too large to keep. -/
def keepable : Json → Bool
  | .number _ => true
  | v => (v.keep room).isSome

def isAudience : Json → Bool
  | .text _ => true
  | v => (Json.list? Json.string? v).isSome

/-- The rules for all tokens, but for the time. -/
def wellFormed : Json → Bool
  | .object members =>
    match (Json.object members).fields? ["exp", "nbf", "sub", "iss", "aud"] with
    | some fields =>
      (fields "nbf").all skippable && (fields "iss").all keepable &&
      (fields "aud").all fun v => keepable v && !isAudience v
    | none => false
  | _ => false

end Claims
end SignalHub.Token
