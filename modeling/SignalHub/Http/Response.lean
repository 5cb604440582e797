import SignalHub.Json.Printer

/-! An HTTP response has a status and may have a body, in JSON or in plain text. -/
namespace SignalHub.Http

inductive Body where
  | empty
  | json (text : String)
  | plain (text : String)
  deriving DecidableEq, Repr

structure Response where
  status : Nat
  body : Body
  deriving DecidableEq, Repr

namespace Response

def bare (status : Nat) : Response := ⟨status, .empty⟩

def json (status : Nat) (v : Json) : Response := ⟨status, .json v.render⟩

def error (status : Nat) (message : String) : Response :=
  json status (.ofMembers [("error", .ofString message)])

/-- The response to a request that asks for the head only. -/
def headOnly (r : Response) : Response :=
  match r.body with
  | .empty => r
  | .json _ => { r with body := .json "" }
  | .plain _ => { r with body := .plain "" }

end Response
end SignalHub.Http
