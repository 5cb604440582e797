import SignalHub.Text.Utf8

/-! The target of a request is a path with a query, an absolute URI, or an authority alone. What
follows a number sign is not part of it. -/
namespace SignalHub.Http

structure Uri where
  path : List UInt8
  query : Option (List UInt8)
  deriving DecidableEq, Repr

namespace Uri

def char (b : UInt8) : Char := Char.ofNat b.toNat

def is (c : Char) (b : UInt8) : Bool := b.toNat == c.toNat

def between (low high : Nat) (b : UInt8) : Bool := low ≤ b.toNat && b.toNat ≤ high

/-- Path bytes; a quote and braces pass although they should be escaped. -/
def pathByte (b : UInt8) : Bool :=
  is '!' b || between 0x24 0x3B b || is '=' b || between 0x40 0x5F b || between 0x61 0x7E b ||
  between 0x7F 0xFF b || is '"' b

def queryByte (b : UInt8) : Bool :=
  is '!' b || between 0x24 0x3B b || is '=' b || between 0x3F 0xFF b

/-- A path and a query, up to a number sign. -/
def pathAndQuery? (bytes : List UInt8) : Option Uri :=
  let visible := bytes.takeWhile fun b => !is '#' b
  let path := visible.takeWhile fun b => !is '?' b
  let rest := visible.drop path.length
  let query := if rest.isEmpty then none else some (rest.drop 1)
  if path.all pathByte && (query.getD []).all queryByte then
    some ⟨if path.isEmpty then [0x2F] else path, query⟩
  else none

def schemeByte (b : UInt8) : Bool :=
  (char b).isAlphanum || is '+' b || is '-' b || is '.' b || is '~' b

def slashes : List UInt8 := Utf8.encode "://"

/-- What follows the scheme, if there is one; a scheme of more than 64 bytes is refused. -/
def afterScheme? (bytes : List UInt8) : Option (Option (List UInt8)) :=
  let scheme := bytes.takeWhile schemeByte
  let rest := bytes.drop scheme.length
  if rest.take 3 = slashes ∧ bytes.length > 3 then
    if scheme.length > 64 then none else some (some (rest.drop 3))
  else some none

/-- What has been seen of an authority. -/
structure Authority where
  colons : Nat
  opened : Bool
  closed : Bool
  percent : Bool
  endsInAt : Bool
  deriving DecidableEq, Repr

def uriByte (b : UInt8) : Bool :=
  (char b).isAlphanum || "!$&'()*+,-.;=_~".toList.contains (char b)

def authorityStep (a : Authority) (b : UInt8) : Option Authority :=
  let a := { a with endsInAt := false }
  if is ':' b then if a.colons ≥ 8 then none else some { a with colons := a.colons + 1 }
  else if is '[' b then if a.percent || a.opened then none else some { a with opened := true }
  else if is ']' b then
    if !a.opened || a.closed then none
    else some { a with closed := true, colons := 0, percent := false }
  else if is '@' b then some { a with colons := 0, percent := false, endsInAt := true }
  else if is '%' b then some { a with percent := true }
  else if uriByte b then some a
  else none

def isAuthority (bytes : List UInt8) : Bool :=
  match bytes.foldlM authorityStep ⟨0, false, false, false, false⟩ with
  | some a => a.opened == a.closed && a.colons ≤ 1 && !a.endsInAt && !a.percent
  | none => false

def authorityEnds (b : UInt8) : Bool := is '/' b || is '?' b || is '#' b

def full? (bytes : List UInt8) : Option Uri := do
  match ← afterScheme? bytes with
  | none => if isAuthority bytes then some ⟨[], none⟩ else none
  | some rest =>
    let authority := rest.takeWhile fun b => !authorityEnds b
    if !authority.isEmpty && isAuthority authority then
      pathAndQuery? (rest.drop authority.length)
    else none

def maxLength : Nat := 65534

def ofBytes? (bytes : List UInt8) : Option Uri :=
  if bytes.length > maxLength then none
  else match bytes with
    | [] => none
    | [b] =>
      if is '/' b || is '*' b then some ⟨[b], none⟩
      else if isAuthority [b] then some ⟨[], none⟩ else none
    | b :: rest => if is '/' b then pathAndQuery? (b :: rest) else full? (b :: rest)

def parse? (text : String) : Option Uri := ofBytes? (Utf8.encode text)

end Uri
end SignalHub.Http
