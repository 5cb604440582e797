import SignalHub.Text.Decimal
import SignalHub.Text.Hex
import SignalHub.Text.Parts

/-! A version 4 address is four decimal numbers below 256 without leading zeros. A version 6 address
is eight groups of at most four hexadecimal digits; two colons stand for one zero group or more, and
the last two groups may be written as a version 4 address. An address is written with its first
longest run of two zero groups or more as two colons. -/
namespace SignalHub.Net

inductive Ip where
  | v4 (bytes : List Nat)
  | v6 (groups : List Nat)
  deriving DecidableEq, Repr

namespace Ip

def byte? (cs : List Char) : Option Nat :=
  match Decimal.leading cs with
  | (digits, []) =>
    if digits.length ≤ 3 ∧ Decimal.proper digits ∧ Decimal.value digits < 256 then
      some (Decimal.value digits)
    else none
  | _ => none

def v4Bytes? (cs : List Char) : Option (List Nat) := do
  let bytes ← (Parts.split '.' cs).mapM byte?
  if bytes.length = 4 then some bytes else none

def group? (cs : List Char) : Option Nat := do
  let digits ← cs.mapM Hex.value?
  if 1 ≤ digits.length ∧ digits.length ≤ 4 then
    some (digits.foldl (fun n d => n * 16 + d.val) 0)
  else none

/-- The last part of an address stands for one group, or for two if it is a version 4 address. -/
def lastGroups? (cs : List Char) : Option (List Nat) :=
  match v4Bytes? cs with
  | some [a, b, c, d] => some [a * 256 + b, c * 256 + d]
  | _ => (group? cs).map fun g => [g]

def groupsOfParts? : List (List Char) → Option (List Nat)
  | [] => some []
  | [part] => lastGroups? part
  | part :: rest => do
    let g ← group? part
    let more ← groupsOfParts? rest
    return g :: more

def groups? (cs : List Char) : Option (List Nat) :=
  if cs.isEmpty then some [] else groupsOfParts? (Parts.split ':' cs)

/-- Groups that no version 4 address may end. -/
def plainGroups? (cs : List Char) : Option (List Nat) :=
  if cs.isEmpty then some [] else (Parts.split ':' cs).mapM group?

/-- What comes before and after the first two colons in a row. -/
def cutAtGap : List Char → Option (List Char × List Char)
  | ':' :: ':' :: rest => some ([], rest)
  | c :: rest => (cutAtGap rest).map fun (left, right) => (c :: left, right)
  | [] => none

def v6Groups? (cs : List Char) : Option (List Nat) :=
  match cutAtGap cs with
  | none => do
    let groups ← groups? cs
    if groups.length = 8 then some groups else none
  | some (left, right) => do
    let first ← plainGroups? left
    let last ← groups? right
    if first.length + last.length ≤ 7 then
      some (first ++ List.replicate (8 - first.length - last.length) 0 ++ last)
    else none

/-- The groups before and after the first longest run of zeros, if the run has two groups or more. -/
def aroundGap (groups : List Nat) : Option (List Nat × List Nat) :=
  let zerosFrom (i : Nat) : Nat := ((groups.drop i).takeWhile (· == 0)).length
  let longest := (List.range groups.length).foldl
    (fun best i => if zerosFrom best < zerosFrom i then i else best) 0
  if 2 ≤ zerosFrom longest then
    some (groups.take longest, groups.drop (longest + zerosFrom longest))
  else none

def v4Text (bytes : List Nat) : String := ".".intercalate (bytes.map Decimal.text)

def groupsText (groups : List Nat) : String :=
  ":".intercalate (groups.map fun g => String.ofList (Hex.digits g))

/-- The version 4 address that a version 6 address stands for. -/
def mapped? : List Nat → Option (List Nat)
  | [0, 0, 0, 0, 0, 0xFFFF, a, b] => some [a / 256, a % 256, b / 256, b % 256]
  | _ => none

def text : Ip → String
  | .v4 bytes => v4Text bytes
  | .v6 groups =>
    match mapped? groups, aroundGap groups with
    | some bytes, _ => "::ffff:" ++ v4Text bytes
    | none, some (left, right) => groupsText left ++ "::" ++ groupsText right
    | none, none => groupsText groups

end Ip
end SignalHub.Net
