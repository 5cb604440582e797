/-! Natural numbers as decimal digits, most significant first. Zero has one digit and no other
number starts with a zero digit. -/
namespace SignalHub.Decimal

abbrev Digit := Fin 10

def Digit.char (d : Digit) : Char := Char.ofNat (48 + d.val)

def Digit.ofChar? (c : Char) : Option Digit :=
  if h : 48 ≤ c.toNat ∧ c.toNat ≤ 57 then some ⟨c.toNat - 48, by omega⟩ else none

def digits (n : Nat) : List Digit :=
  if n < 10 then [⟨n % 10, Nat.mod_lt _ (by decide)⟩]
  else digits (n / 10) ++ [⟨n % 10, Nat.mod_lt _ (by decide)⟩]
termination_by n

def value (ds : List Digit) : Nat := ds.foldl (fun n d => 10 * n + d.val) 0

def chars (ds : List Digit) : List Char := ds.map Digit.char

/-- The digits at the front of a text, and the rest of it. -/
def leading : List Char → List Digit × List Char
  | [] => ([], [])
  | c :: rest =>
    match Digit.ofChar? c with
    | some d => let (ds, after) := leading rest; (d :: ds, after)
    | none => ([], c :: rest)

/-- A run of digits that starts with no needless zero. -/
def proper : List Digit → Bool
  | [] => false
  | [_] => true
  | d :: _ => d != 0

/-- The number a text of digits stands for, whatever zeros it starts with. -/
def number? (cs : List Char) : Option Nat :=
  match leading cs with
  | (d :: ds, []) => some (value (d :: ds))
  | _ => none

def text (n : Nat) : String := String.ofList (chars (digits n))

theorem Digit.ofChar?_char (d : Digit) : Digit.ofChar? d.char = some d := by
  revert d; decide

theorem value_append (ds : List Digit) (d : Digit) : value (ds ++ [d]) = 10 * value ds + d.val := by
  simp [value]

theorem value_digits (n : Nat) : value (digits n) = n := by
  induction n using Nat.strongRecOn with
  | ind n ih =>
    rw [digits]
    split
    · simp [value]; omega
    · rw [value_append, ih _ (by omega)]
      simp only
      omega

end SignalHub.Decimal
