import SignalHub.Text.Parts
import SignalHub.Text.Percent
import SignalHub.Text.Utf8

/-! A form-urlencoded query is a list of `name=value` pairs between ampersands. Empty pairs are
skipped, a missing equals sign means an empty value, a plus sign means a space, and escapes that
decode to no character read as U+FFFD. `encode` writes any pairs so that `parse` gives them back. -/
namespace SignalHub.Form

def ampersand : UInt8 := 0x26
def equals : UInt8 := 0x3D
def plus : UInt8 := 0x2B
def space : UInt8 := 0x20

def unplus (b : UInt8) : UInt8 := if b = plus then space else b

def component (bytes : List UInt8) : String := Utf8.lossy (Percent.decode (bytes.map unplus))

def pair (bytes : List UInt8) : String × String :=
  let (name, value) := Parts.cut equals bytes
  (component name, component (value.getD []))

def parse (query : List UInt8) : List (String × String) :=
  ((Parts.split ampersand query).filter fun part => !part.isEmpty).map pair

/-- Letters, digits and four marks are written as they are. -/
def plain (b : UInt8) : Bool :=
  let n := b.toNat
  (48 ≤ n && n ≤ 57) || (65 ≤ n && n ≤ 90) || (97 ≤ n && n ≤ 122) ||
  n == 0x2A || n == 0x2D || n == 0x2E || n == 0x5F

def encodeByte (b : UInt8) : List UInt8 :=
  if plain b then [b] else if b = space then [plus] else Percent.escape b

def encodeText (text : String) : List UInt8 := (Utf8.encode text).flatMap encodeByte

def encodePair (p : String × String) : List UInt8 :=
  encodeText p.1 ++ equals :: encodeText p.2

def encode : List (String × String) → List UInt8
  | [] => []
  | [p] => encodePair p
  | p :: rest => encodePair p ++ ampersand :: encode rest

end SignalHub.Form
