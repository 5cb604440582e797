import SignalHub.Net.Ip
import SignalHub.Text.Blank
import SignalHub.Text.Percent
import SignalHub.Text.Punycode
import SignalHub.Text.Utf8

/-! Whether a text is an absolute URL, and what its scheme is. Only the scheme and the authority can
be wrong. Web and file schemes have rules of their own for the authority: backslashes count as
slashes, and the host is a domain name or an address; for any other scheme a host may hold all but a
few characters. -/
namespace SignalHub.Net.Url

inductive Error where
  | relative
  | emptyHost
  | port
  | ipv4
  | ipv6
  | domain
  | hostCharacter
  deriving DecidableEq, Repr

def Error.message : Error → String
  | .relative => "relative URL without a base"
  | .emptyHost => "empty host"
  | .port => "invalid port number"
  | .ipv4 => "invalid IPv4 address"
  | .ipv6 => "invalid IPv6 address"
  | .domain => "invalid international domain name"
  | .hostCharacter => "invalid domain character"

/-- Controls and spaces at the ends do not count, nor do tabs and line ends anywhere. -/
def significant (cs : List Char) : List Char :=
  let outer (c : Char) : Bool := c.toNat ≤ 0x20
  let inner := ((cs.dropWhile outer).reverse.dropWhile outer).reverse
  inner.filter fun c => !(c == '\t' || c == '\n' || c == '\r')

def schemeLetter (c : Char) : Bool := c.isAlphanum || c == '+' || c == '-' || c == '.'

/-- The scheme in lower case, and what follows its colon. -/
def scheme? (cs : List Char) : Option (List Char × List Char) :=
  match cs.head?, Parts.cut ':' cs with
  | some first, (name, some rest) =>
    if first.isAlpha ∧ name.all schemeLetter then some (name.map Char.toLower, rest) else none
  | _, _ => none

def web : List (List Char) := ["http", "https", "ws", "wss", "ftp"].map String.toList

def slash (c : Char) : Bool := c == '/' || c == '\\'

/-- What may follow an authority. -/
def ends (special : Bool) (c : Char) : Bool :=
  c == '/' || c == '?' || c == '#' || (special && c == '\\')

/-- The host at the front of a text, and the rest; colons inside brackets belong to the host. -/
def host (special : Bool) : Bool → List Char → List Char × List Char
  | _, [] => ([], [])
  | inside, c :: rest =>
    if ends special c || (c == ':' && !inside) then ([], c :: rest)
    else
      let inside := c == '[' || (inside && c != ']')
      let (more, after) := host special inside rest
      (c :: more, after)

def isControl (c : Char) : Bool := c.toNat < 0x20 || (0x7F ≤ c.toNat && c.toNat < 0xA0)

/-- Characters that are set aside for private use, or are none. -/
def isUnassignable (c : Char) : Bool :=
  let n := c.toNat
  (0xE000 ≤ n && n ≤ 0xF8FF) || (0xFDD0 ≤ n && n ≤ 0xFDEF) || n % 0x10000 ≥ 0xFFFE || 0xF0000 ≤ n

def forbiddenInDomain (c : Char) : Bool :=
  isControl c || Blank.isBlank c || isUnassignable c || "%#/:<>?@[\\]^|".toList.contains c

/-- Full stops of other scripts and letters of full width count as their plain forms. -/
def plainForm (c : Char) : Char :=
  let n := c.toNat
  if n == 0x3002 || n == 0xFF61 then '.'
  else if 0xFF01 ≤ n && n ≤ 0xFF5E then (Char.ofNat (n - 0xFEE0)).toLower
  else c.toLower

/-- Characters that a domain name is read without. -/
def ignored (c : Char) : Bool :=
  let n := c.toNat
  n == 0xAD || n == 0x200B || n == 0x2060 || n == 0xFEFF || (0xFE00 ≤ n && n ≤ 0xFE0F)

/-- A label that stands for a text of other scripts stands for one that has such letters. -/
def soundLabel : List Char → Bool
  | 'x' :: 'n' :: '-' :: '-' :: label =>
    match Punycode.decode label with
    | some decoded => decoded.any (fun c => 0x80 ≤ c.toNat) && !decoded.any forbiddenInDomain
    | none => false
  | _ => true

def domain? (cs : List Char) : Option (List Char) := do
  let decoded ← Utf8.chars? (Utf8.decode (Percent.decode (Utf8.encode (String.ofList cs))))
  let plain := (decoded.filter fun c => !ignored c).map plainForm
  if plain.any forbiddenInDomain || plain.contains Utf8.replacement then none
  else if (Parts.split '.' plain).all soundLabel then some plain
  else none

/-- A number in an address: hexadecimal after `0x`, octal after a zero, or decimal. -/
def number? : List Char → Option Nat
  | [] => none
  | '0' :: 'x' :: rest => (rest.mapM Hex.value?).map fun ds => ds.foldl (fun n d => n * 16 + d.val) 0
  | ['0'] => some 0
  | '0' :: rest => do
    let ds ← rest.mapM Decimal.Digit.ofChar?
    if ds.all fun d => d.val < 8 then some (ds.foldl (fun n d => n * 8 + d.val) 0) else none
  | cs => Decimal.number? cs

def withoutLastEmpty (parts : List (List Char)) : List (List Char) :=
  if parts.getLast? = some [] then parts.dropLast else parts

def endsInNumber (domain : List Char) : Bool :=
  match (withoutLastEmpty (Parts.split '.' domain)).getLast? with
  | none => false
  | some last => (!last.isEmpty && last.all Char.isDigit) || (number? last).isSome

/-- At most four numbers, of which the last fills up the address. -/
def isAddress (domain : List Char) : Bool :=
  let parts := withoutLastEmpty (Parts.split '.' domain)
  match (parts.mapM number?).map List.reverse with
  | some (last :: others) =>
    parts.length ≤ 4 && others.all (· < 256) && last < Nat.pow 256 (4 - others.length)
  | _ => false

def checkBracketed (cs : List Char) : Except Error Unit :=
  if cs.getLast? = some ']' ∧ (Ip.v6Groups? (cs.drop 1).dropLast).isSome then .ok ()
  else .error .ipv6

def checkDomain (cs : List Char) : Except Error Unit :=
  if cs.head? = some '[' then checkBracketed cs
  else match domain? cs with
    | none => .error .domain
    | some [] => .error .emptyHost
    | some domain =>
      if endsInNumber domain && !isAddress domain then .error .ipv4 else .ok ()

def forbiddenInHost (c : Char) : Bool :=
  "\x00\t\n\r #/:<>?@[\\]^|".toList.contains c

def checkOpaque (cs : List Char) : Except Error Unit :=
  if cs.head? = some '[' then checkBracketed cs
  else if cs.any forbiddenInHost then .error .hostCharacter
  else .ok ()

def checkPort : List Char → Except Error Unit
  | ':' :: rest =>
    match Decimal.leading rest with
    | (digits, after) =>
      if Decimal.value digits < UInt16.size ∧ after.head?.all (fun c => ends true c) then .ok ()
      else .error .port
  | _ => .ok ()

/-- The host and port after the user information. -/
def checkServer (special hasUser : Bool) (cs : List Char) : Except Error Unit :=
  match host special false cs with
  | ([], rest) =>
    if special || hasUser || rest.head? == some ':' then .error .emptyHost else .ok ()
  | (name, rest) => do
    if special then checkDomain name else checkOpaque name
    checkPort rest

def checkAuthority (special : Bool) (cs : List Char) : Except Error Unit :=
  let front := cs.takeWhile fun c => !ends special c
  match Parts.cutLast '@' front with
  | none => checkServer special false cs
  | some (user, _) =>
    let server := cs.drop (user.length + 1)
    if user.isEmpty ∧ server.head?.any (ends special) then .error .emptyHost
    else checkServer special (!user.isEmpty && user != [':']) server

def isDriveLetter : List Char → Bool
  | [letter, mark] => letter.isAlpha && (mark == ':' || mark == '|')
  | _ => false

def checkFile : List Char → Except Error Unit
  | a :: b :: rest =>
    if slash a && slash b then
      let name := rest.takeWhile fun c => !ends true c
      if name.isEmpty || isDriveLetter name then .ok () else checkDomain name
    else .ok ()
  | _ => .ok ()

def check (scheme rest : List Char) : Except Error Unit :=
  if scheme = "file".toList then checkFile rest
  else if web.contains scheme then checkAuthority true (rest.dropWhile slash)
  else match rest with
    | '/' :: '/' :: authority => checkAuthority false authority
    | _ => .ok ()

/-- The scheme of an absolute URL. -/
def scheme (text : String) : Except Error String :=
  match scheme? (significant text.toList) with
  | none => .error .relative
  | some (name, rest) => do
    check name rest
    return String.ofList name

end SignalHub.Net.Url
