import SignalHub.Http.Uri

/-! An HTTP request has a method, a target and headers. Header names are compared without regard
to case; a header value may be any bytes but control characters, and is readable when it is plain
text. -/
namespace SignalHub.Http

structure Header where
  name : String
  value : List UInt8
  deriving DecidableEq, Repr

namespace Header

def allowed (b : UInt8) : Bool := b == 0x09 || (0x20 ≤ b && b != 0x7F)

def visible (b : UInt8) : Bool := b == 0x09 || (0x20 ≤ b && b < 0x7F)

def nameChar (c : Char) : Bool := c.isAlphanum || "!#$%&'*+-.^_|~\x60".toList.contains c

def wellFormed (h : Header) : Bool :=
  !h.name.isEmpty && h.name.toList.all nameChar && h.value.all allowed

def readable? (h : Header) : Option (List Char) :=
  if h.value.all visible then some (h.value.map fun b => Char.ofNat b.toNat) else none

end Header

structure Request where
  method : String
  uri : Uri
  headers : List Header
  deriving Repr

namespace Request

def lower (s : String) : List Char := s.toList.map Char.toLower

/-- The first header of that name. -/
def header? (r : Request) (name : String) : Option Header :=
  r.headers.find? fun h => lower h.name == lower name

end Request
end SignalHub.Http
