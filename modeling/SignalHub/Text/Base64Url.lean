/-! Base64 for URLs, without padding: three bytes make four letters; one or two last bytes make two
or three. Reading is strict: no padding, no foreign letter, no length that no byte text has, and no
set bit that no byte holds. So each byte text has one written form. -/
namespace SignalHub.Base64Url

def letter (n : Nat) : Char :=
  if n < 26 then Char.ofNat (65 + n)
  else if n < 52 then Char.ofNat (71 + n)
  else if n < 62 then Char.ofNat (n - 4)
  else if n = 62 then '-' else '_'

def value? (c : Char) : Option Nat :=
  let n := c.toNat
  if 65 ≤ n ∧ n ≤ 90 then some (n - 65)
  else if 97 ≤ n ∧ n ≤ 122 then some (n - 71)
  else if 48 ≤ n ∧ n ≤ 57 then some (n + 4)
  else if c = '-' then some 62
  else if c = '_' then some 63
  else none

/-- The six-bit groups of a byte text; the last group is filled up with zero bits. -/
def groups : List UInt8 → List Nat
  | a :: b :: c :: rest =>
    a.toNat / 4 :: (a.toNat % 4 * 16 + b.toNat / 16) :: (b.toNat % 16 * 4 + c.toNat / 64) ::
      c.toNat % 64 :: groups rest
  | [a, b] => [a.toNat / 4, a.toNat % 4 * 16 + b.toNat / 16, b.toNat % 16 * 4]
  | [a] => [a.toNat / 4, a.toNat % 4 * 16]
  | [] => []

/-- The bytes of six-bit groups, if they are the groups of a byte text. -/
def bytes? : List Nat → Option (List UInt8)
  | w :: x :: y :: z :: rest =>
    (bytes? rest).map fun more =>
      (w * 4 + x / 16).toUInt8 :: (x % 16 * 16 + y / 4).toUInt8 :: (y % 4 * 64 + z).toUInt8 :: more
  | [w, x, y] =>
    if y % 4 = 0 then some [(w * 4 + x / 16).toUInt8, (x % 16 * 16 + y / 4).toUInt8] else none
  | [w, x] => if x % 16 = 0 then some [(w * 4 + x / 16).toUInt8] else none
  | [_] => none
  | [] => some []

def encode (bytes : List UInt8) : List Char := (groups bytes).map letter

def decode (text : List Char) : Option (List UInt8) := (text.mapM value?).bind bytes?

end SignalHub.Base64Url
