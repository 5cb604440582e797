import SignalHub.Text.Decimal

/-! A label that starts with `xn--` stands for a text of other scripts. Its plain characters come
first, up to the last hyphen; what follows are numbers of base 36 that say which character is put
in next, and where. How many digits a number has depends on a bias that adapts to the numbers
before. -/
namespace SignalHub.Punycode

def base : Nat := 36
def least : Nat := 1
def most : Nat := 26

def digit? (c : Char) : Option Nat :=
  match Decimal.Digit.ofChar? c with
  | some d => some (d.val + 26)
  | none =>
    let lower := c.toLower
    if lower.isAlpha then some (lower.toNat - 97) else none

/-- How often a number is divided until it is small, and what is left. -/
def settle (delta : Nat) : Nat × Nat :=
  if (base - least) * most / 2 < delta then
    let (times, rest) := settle (delta / (base - least))
    (times + 1, rest)
  else (0, delta)
termination_by delta
decreasing_by exact Nat.div_lt_self (by omega) (by decide)

/-- The bias after a number, in a text that has `size` characters then. -/
def adapt (delta size : Nat) (first : Bool) : Nat :=
  let damped := if first then delta / 700 else delta / 2
  let (times, rest) := settle (damped + damped / size)
  base * times + (base - least + 1) * rest / (rest + 38)

/-- The digit value at which a number ends, for the digit with weight number `k`. -/
def threshold (k bias : Nat) : Nat := min most (max least (k - bias))

/-- The number at the front of the digits, and the digits after it. -/
def number? (bias : Nat) : (k weight : Nat) → List Nat → Option (Nat × List Nat)
  | _, _, [] => none
  | k, weight, d :: rest =>
    let t := threshold k bias
    if d < t then some (d * weight, rest)
    else do
      let (more, rest) ← number? bias (k + base) (weight * (base - t)) rest
      return (d * weight + more, rest)

/-- What has been read so far: the characters, the last one put in and its place, and the bias. -/
structure Progress where
  chars : List Char
  code : Nat
  place : Nat
  bias : Nat
  first : Bool
  deriving DecidableEq, Repr

def isScalar (n : Nat) : Bool := n < 0xD800 || (0xDFFF < n && n ≤ 0x10FFFF)

def Progress.insert? (p : Progress) (delta : Nat) : Option Progress :=
  let size := p.chars.length + 1
  let position := p.place + delta
  let code := p.code + position / size
  let place := position % size
  if isScalar code then
    some ⟨p.chars.insertIdx place (Char.ofNat code), code, place + 1, adapt delta size p.first, false⟩
  else none

/-- Reads at most `count` numbers, one at least for each digit that is left. -/
def insertAll : (count : Nat) → List Nat → Progress → Option (List Char)
  | _, [], p => some p.chars
  | 0, _ :: _, _ => none
  | count + 1, digits, p => do
    let (delta, rest) ← number? p.bias base 1 digits
    let p ← p.insert? delta
    insertAll count rest p

/-- The text that a label without its mark stands for. -/
def decode (label : List Char) : Option (List Char) := do
  let (plain, coded) := match label.reverse.span (· != '-') with
    | (coded, '-' :: plain) => (plain.reverse, coded.reverse)
    | (coded, _) => ([], coded.reverse)
  let digits ← coded.mapM digit?
  insertAll digits.length digits ⟨plain, 128, 0, 72, true⟩

end SignalHub.Punycode
