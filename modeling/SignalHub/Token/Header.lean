import SignalHub.Json.Reader
import SignalHub.Json.Record

/-! A header names the algorithm, which must be HS256. Its other known members may be null or absent
and must else be of their kind: texts, a list of texts, and a key. -/
namespace SignalHub.Token.Header

def fieldNames : List String :=
  ["typ", "alg", "cty", "jku", "jwk", "kid", "x5u", "x5c", "x5t", "x5t#S256"]

def textNames : List String := ["typ", "cty", "jku", "kid", "x5u", "x5t", "x5t#S256"]

/-- A choice is a name, or an object with that name as its only member and null in it. -/
def choice? : Json → Option String
  | .text name => name
  | .object [(name, .null)] => name
  | _ => none

def optional (fields : Json.Fields) (name : String) (read : Json → Option α) : Bool :=
  (fields.withDefault name (Json.nullable? read) none).isSome

/-- Members that a key of any kind may have. -/
def keyTextNames : List String := ["use", "kid", "x5u", "x5t", "x5t#S256"]
def keyListNames : List String := ["key_ops", "x5c"]
def keyNames : List String := "alg" :: keyListNames ++ keyTextNames

def curves : List String := ["P-256", "P-384", "P-521", "Ed25519"]

/-- The members that the kinds of keys need, beside their kind. -/
def kinds : List (String × List String) :=
  [("EC", ["crv", "x", "y"]), ("RSA", ["n", "e"]), ("oct", ["k"]), ("OKP", ["crv", "x"])]

def holds (fields : Json.Fields) (name : String) : Bool :=
  if name = "crv" then (fields.required name choice?).any curves.contains
  else (fields.required name Json.string?).isSome

def isOfKind (v : Json) (kind : String) (names : List String) : Bool :=
  match v.fields? ("kty" :: names) with
  | some fields => fields.required "kty" choice? == some kind && names.all (holds fields)
  | none => false

def hasKeyMembers (v : Json) : Bool :=
  match v.fields? keyNames with
  | some fields =>
    optional fields "alg" choice? &&
    keyTextNames.all (fun name => optional fields name Json.string?) &&
    keyListNames.all fun name => optional fields name (Json.list? Json.string?)
  | none => false

/-- Keys that a header may carry; they are not used. -/
def isKey : Json → Bool
  | .object members =>
    hasKeyMembers (.object members) &&
    kinds.any fun (kind, names) => isOfKind (.object members) kind names
  | _ => false

/-- All of a key is kept to find out its kind. -/
def key? (v : Json) : Option Json := if isKey v then v.keep 126 else none

/-- In an array no field may be missing. -/
def complete : Json → Bool
  | .array items => items.length == fieldNames.length
  | _ => true

def accepts (v : Json) : Bool :=
  match v.fields? fieldNames with
  | some fields =>
    complete v && fields.required "alg" choice? == some "HS256" &&
    textNames.all (fun name => optional fields name Json.string?) &&
    optional fields "x5c" (Json.list? Json.string?) && optional fields "jwk" key?
  | none => false

/-- The header that is written. -/
def written : Json := .ofMembers [("typ", .ofString "JWT"), ("alg", .ofString "HS256")]

end SignalHub.Token.Header
