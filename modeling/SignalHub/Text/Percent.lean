import SignalHub.Text.Hex

/-! A percent sign and two hexadecimal digits stand for a byte; a percent sign without two digits
stands for itself. -/
namespace SignalHub.Percent

def sign : UInt8 := 0x25

def hexValue? (b : UInt8) : Option (Fin 16) := Hex.value? (Char.ofNat b.toNat)

def decode : List UInt8 → List UInt8
  | [] => []
  | a :: rest =>
    if a = sign then
      match rest with
      | h :: l :: more =>
        match hexValue? h, hexValue? l with
        | some high, some low => (high.val * 16 + low.val).toUInt8 :: decode more
        | _, _ => a :: decode (h :: l :: more)
      | [l] => [a, l]
      | [] => [a]
    else a :: decode rest
termination_by bytes => bytes.length

/-- The escape of a byte, its digits in upper case. -/
def escape (b : UInt8) : List UInt8 :=
  [sign, (Hex.upper ⟨b.toNat / 16, by have := b.toNat_lt; omega⟩).toNat.toUInt8,
    (Hex.upper ⟨b.toNat % 16, by omega⟩).toNat.toUInt8]

end SignalHub.Percent
