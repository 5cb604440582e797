import SignalHub.Net.Ip

/-! A socket address is an address and a port. A version 6 address stands in brackets and may name a
scope. -/
namespace SignalHub.Net

structure SocketAddress where
  ip : Ip
  scope : Nat
  port : Nat
  deriving DecidableEq, Repr

namespace SocketAddress

def below? (bound : Nat) (cs : List Char) : Option Nat := do
  let n ← Decimal.number? cs
  if n < bound then some n else none

def port? (cs : List Char) : Option Nat := below? UInt16.size cs

def bracketed? (inner : List Char) : Option (Ip × Nat) :=
  match Parts.cut '%' inner with
  | (address, none) => (Ip.v6Groups? address).map fun groups => (.v6 groups, 0)
  | (address, some scope) => do
    let groups ← Ip.v6Groups? address
    let scope ← below? UInt32.size scope
    return (.v6 groups, scope)

def ofChars? : List Char → Option SocketAddress
  | '[' :: cs =>
    match Parts.cut ']' cs with
    | (inner, some (':' :: port)) => do
      let (ip, scope) ← bracketed? inner
      let port ← port? port
      return ⟨ip, scope, port⟩
    | _ => none
  | cs =>
    match Parts.cut ':' cs with
    | (address, some port) => do
      let bytes ← Ip.v4Bytes? address
      let port ← port? port
      return ⟨.v4 bytes, 0, port⟩
    | _ => none

def parse? (text : String) : Option SocketAddress := ofChars? text.toList

end SocketAddress
end SignalHub.Net
