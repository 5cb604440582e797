import SignalHub.Text.Decimal
import SignalHub.Word

/-! A JSON numeral keeps the parts it is written in: a sign, the whole part, the digits after the
point and the exponent. It is an integer when it has neither point nor exponent and fits in 64 bits;
minus zero does not. A reader that keeps numbers as doubles refuses the numerals that `finite`
rejects. -/
namespace SignalHub.Json

open Decimal (Digit)

/-- `fraction` is empty when there is no point. -/
structure Numeral where
  negative : Bool
  whole : Nat
  fraction : List Digit
  exponent : Option Int
  deriving DecidableEq, Repr

namespace Numeral

def ofInt (i : Int) : Numeral := ⟨decide (i < 0), i.natAbs, [], none⟩

def sign : List Char → Bool × List Char
  | '-' :: rest => (true, rest)
  | rest => (false, rest)

def fraction? : List Char → Option (List Digit × List Char)
  | '.' :: rest =>
    match Decimal.leading rest with
    | ([], _) => none
    | found => some found
  | rest => some ([], rest)

def exponentSign : List Char → Bool × List Char
  | '+' :: rest => (false, rest)
  | rest => sign rest

def exponent? : List Char → Option (Option Int)
  | [] => some none
  | c :: rest =>
    if c = 'e' ∨ c = 'E' then
      match exponentSign rest with
      | (negative, digits) =>
        (Decimal.number? digits).map fun n => some (if negative then -(n : Int) else n)
    else none

def parse? (text : List Char) : Option Numeral :=
  match sign text with
  | (negative, unsigned) =>
    match Decimal.leading unsigned with
    | (whole, rest) =>
      if Decimal.proper whole then do
        let (fraction, rest) ← fraction? rest
        let exponent ← exponent? rest
        return ⟨negative, Decimal.value whole, fraction, exponent⟩
      else none

def exponentChars : Option Int → List Char
  | none => []
  | some e => 'e' :: (if e < 0 then ['-'] else []) ++ Decimal.chars (Decimal.digits e.natAbs)

def chars (n : Numeral) : List Char :=
  (if n.negative then ['-'] else []) ++ Decimal.chars (Decimal.digits n.whole) ++
    (if n.fraction.isEmpty then [] else '.' :: Decimal.chars n.fraction) ++
    exponentChars n.exponent

def integer? (n : Numeral) : Option Int :=
  if n.fraction = [] ∧ n.exponent = none then
    if n.negative then
      if 0 < n.whole ∧ n.whole ≤ Word.signedBound then some (-(n.whole : Int)) else none
    else if n.whole < UInt64.size then some n.whole else none
  else none

/-- The 53 most significant bits of a number, rounded to the nearest, ties to even. -/
def round53 (n : Nat) : Nat :=
  if n < 0x20000000000000 then n
  else
    let unit := 1 <<< (n.log2 - 52)
    let down := n / unit
    let rest := n % unit
    let up := 2 * rest > unit || (2 * rest == unit && down % 2 == 1)
    (if up then down + 1 else down) * unit

/-- Appends digits to a number while it fits in 64 bits; also the digits left over. -/
def fill (n : Nat) : List Digit → Nat × List Digit
  | [] => (n, [])
  | d :: rest => if 10 * n + d.val < UInt64.size then fill (10 * n + d.val) rest else (n, d :: rest)

/-- The significand of 64 bits and the power of ten that goes with it; digits that do not fit are cut
off. -/
def scaled (n : Numeral) : Nat × Int :=
  match fill 0 (Decimal.digits n.whole) with
  | (top, cut) =>
    match fill top n.fraction with
    | (significand, unused) =>
      (significand, (cut.length : Int) - ((n.fraction.length : Int) - unused.length))

/-- The first number that rounds to infinity. -/
def overflow : Nat := 1 <<< 1024 - 1 <<< 970

/-- A significand times a power of ten, each rounded to a double, has a finite product. -/
def finiteScaled (significand : Nat) (power : Int) : Bool :=
  significand == 0 || power < 0 ||
  (power ≤ 308 && round53 significand * round53 (Nat.pow 10 power.toNat) < overflow)

def finite (n : Numeral) : Bool :=
  match n.scaled with
  | (significand, power) =>
    match n.exponent with
    | none => finiteScaled significand power
    | some e =>
      if e ≥ 0x80000000 then significand == 0
      else if e ≤ -0x80000000 then true
      else finiteScaled significand (power + e)

end Numeral
end SignalHub.Json
