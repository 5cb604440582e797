/-! Hexadecimal digits are written in lower case and read in either case. -/
namespace SignalHub.Hex

def digit (d : Fin 16) : Char :=
  if d.val < 10 then Char.ofNat (48 + d.val) else Char.ofNat (87 + d.val)

def value? (c : Char) : Option (Fin 16) :=
  let n := c.toNat
  if h : 48 ≤ n ∧ n ≤ 57 then some ⟨n - 48, by omega⟩
  else if h : 97 ≤ n ∧ n ≤ 102 then some ⟨n - 87, by omega⟩
  else if h : 65 ≤ n ∧ n ≤ 70 then some ⟨n - 55, by omega⟩
  else none

def lastDigit (n : Nat) : Char := digit (Fin.ofNat 16 n)

/-- The digits of a number, most significant first; zero has one digit. -/
def digits (n : Nat) : List Char :=
  if n < 16 then [lastDigit n] else digits (n / 16) ++ [lastDigit n]
termination_by n

def upper (d : Fin 16) : Char :=
  if d.val < 10 then Char.ofNat (48 + d.val) else Char.ofNat (55 + d.val)

theorem value?_digit (d : Fin 16) : value? (digit d) = some d := by
  revert d; decide

theorem value?_upper (d : Fin 16) : value? (upper d) = some d := by
  revert d; decide

end SignalHub.Hex
