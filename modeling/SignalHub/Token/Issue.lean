import SignalHub.Json.Printer
import SignalHub.Token.Verify

/-! A token is valid for a number of seconds from now on, which may be negative. There is none if
that number is no span of time, or if the token would expire beyond the calendar. -/
namespace SignalHub.Token

inductive IssueError where
  | spanOutOfRange
  | dateOutOfRange
  deriving DecidableEq, Repr

def IssueError.message : IssueError → String
  | .spanOutOfRange => "TimeDelta::seconds out of bounds"
  | .dateOutOfRange => "`DateTime + TimeDelta` overflowed"

/-- The longest span in seconds. -/
def longestSpan : Int := ((Word.signedBound : Int) - 1) / 1000

/-- The first and the last second of the calendar. -/
def firstSecond : Int := -8334601228800
def lastSecond : Int := 8210266876799

def segment (v : Json) : List Char := Base64Url.encode (Utf8.encode v.render)

def write (secret : String) (claims : Claims) : String :=
  let header := segment Header.written
  let body := segment claims.toJson
  String.ofList (Segments.chars ⟨header, body, sign secret (Segments.signed header body)⟩)

def issue (secret : String) (now : Int) (user : Uuid) (seconds : Int) : Except IssueError String :=
  if seconds < -longestSpan ∨ longestSpan < seconds then .error .spanOutOfRange
  else if now + seconds < firstSecond ∨ lastSecond < now + seconds then .error .dateOutOfRange
  else .ok (write secret ⟨user.text, now + seconds, "access"⟩)

end SignalHub.Token
