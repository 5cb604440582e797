import SignalHub.Access
import SignalHub.Digest.Hmac
import SignalHub.Text.Base64Url
import SignalHub.Text.Parts
import SignalHub.Token.Claims
import SignalHub.Token.Header
import SignalHub.Uuid

/-! A token is a header, claims and a signature between dots, each written in base64. It is accepted
when its signature is the code of the other two under the secret, and when it has not expired. Whose
token it is is looked at last. -/
namespace SignalHub.Token

structure Segments where
  header : List Char
  claims : List Char
  signature : List Char
  deriving DecidableEq, Repr

namespace Segments

def ofChars? (cs : List Char) : Option Segments :=
  match Parts.split '.' cs with
  | [header, claims, signature] => some ⟨header, claims, signature⟩
  | _ => none

/-- What is signed. -/
def signed (header claims : List Char) : List Char := header ++ '.' :: claims

def chars (s : Segments) : List Char := signed s.header s.claims ++ '.' :: s.signature

end Segments

/-- The written signature of a text. -/
def sign (secret : String) (text : List Char) : List Char :=
  Base64Url.encode (Hmac.code (Utf8.encode secret) (Utf8.encode (String.ofList text)))

def headerJson? (segment : List Char) : Option Json := do
  let bytes ← Base64Url.decode segment
  let text ← Utf8.text? bytes
  Json.parse? text

def claimsJson? (segment : List Char) : Option Json := do
  let bytes ← Base64Url.decode segment
  Json.ofLetters? (Utf8.decode bytes)

/-- The claims of a token that is signed and not expired. -/
def claims? (secret : String) (now : Int) (token : String) : Option Claims := do
  let s ← Segments.ofChars? token.toList
  let header ← headerJson? s.header
  guard (Header.accepts header)
  guard (s.signature = sign secret (Segments.signed s.header s.claims))
  let v ← claimsJson? s.claims
  let claims ← Claims.ofJson? v
  guard (Claims.wellFormed v)
  guard (0 ≤ claims.expiry ∧ now ≤ claims.expiry)
  return claims

/-- How a verifier shows itself: without its secret. -/
def shownVerifier : String := "JwtVerifier \x7b secret: \"[redacted]\" \x7d"

/-- The user that a token was made for. -/
def verify (secret : String) (now : Int) (token : String) : Except Access.Error Uuid :=
  match claims? secret now token with
  | none => .error .invalidToken
  | some claims =>
    match Uuid.parse? claims.subject with
    | none => .error .invalidSubject
    | some user => .ok user

end SignalHub.Token
