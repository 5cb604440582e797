/-! Why a request is not let in. -/
namespace SignalHub.Access

inductive Error where
  | missingToken
  | malformedHeader
  | invalidToken
  | invalidSubject
  deriving DecidableEq, Repr

def Error.message : Error → String
  | .missingToken => "missing authorization header"
  | .malformedHeader => "invalid authorization header format"
  | .invalidToken => "invalid or expired token"
  | .invalidSubject => "invalid user id in token"

end SignalHub.Access
