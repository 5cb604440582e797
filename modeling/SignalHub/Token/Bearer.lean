import SignalHub.Access
import SignalHub.Http.Request
import SignalHub.Text.Blank
import SignalHub.Text.Form

/-! A request carries its token in the authorization header. Clients that cannot set headers put it
into the query, which is looked at only when there is no such header. -/
namespace SignalHub.Token

/-- The token in the text of an authorization header. -/
def ofAuthorization? (text : List Char) : Option String :=
  let (scheme, rest) := Parts.cut ' ' text
  let token := Blank.trimmed (rest.getD [])
  if scheme.map Char.toLower = "bearer".toList ∧ !token.isEmpty then some (String.ofList token)
  else none

def ofQuery? (query : List UInt8) : Option String :=
  ((Form.parse query).find? fun p => p.1 == "token").bind fun p =>
    if p.2.isEmpty then none else some p.2

/-- The token that a request carries. -/
def ofRequest (r : Http.Request) : Except Access.Error String :=
  match r.header? "authorization" with
  | some header =>
    match header.readable?.bind ofAuthorization? with
    | some token => .ok token
    | none => .error .malformedHeader
  | none =>
    match r.uri.query.bind ofQuery? with
    | some token => .ok token
    | none => .error .missingToken

end SignalHub.Token
