/-! A byte text decodes to letters. A letter is a character, or `none` for a longest run of bytes
that begins a character and is cut short, so a text is sound exactly when all of its letters are
characters. Readers that must refuse unsound texts use `text?`; readers that must accept them use
`lossy`, which writes U+FFFD for each unsound letter. -/
namespace SignalHub.Utf8

abbrev Letter := Option Char

/-- The unsound letter shown as a character. -/
def replacement : Char := '\uFFFD'

/-- What the bytes read so far leave open: nothing, or `owed` continuation bytes of a character, the
next of which lies between `low` and `high`. -/
inductive Progress where
  | start
  | inside (owed : Nat) (low high : Nat) (value : Nat)
  deriving DecidableEq, Repr

/-- A first byte: the letters it completes, and what it leaves open. -/
def first (b : Nat) : List Letter × Progress :=
  if b < 0x80 then ([some (Char.ofNat b)], .start)
  else if b < 0xC2 then ([none], .start)
  else if b < 0xE0 then ([], .inside 1 0x80 0xBF (b - 0xC0))
  else if b < 0xF0 then
    ([], .inside 2 (if b = 0xE0 then 0xA0 else 0x80) (if b = 0xED then 0x9F else 0xBF) (b - 0xE0))
  else if b < 0xF5 then
    ([], .inside 3 (if b = 0xF0 then 0x90 else 0x80) (if b = 0xF4 then 0x8F else 0xBF) (b - 0xF0))
  else ([none], .start)

def next : Progress → Nat → List Letter × Progress
  | .start, b => first b
  | .inside owed low high value, b =>
    if low ≤ b ∧ b ≤ high then
      if owed ≤ 1 then ([some (Char.ofNat (value * 64 + (b - 0x80)))], .start)
      else ([], .inside (owed - 1) 0x80 0xBF (value * 64 + (b - 0x80)))
    else let (done, p) := first b; (none :: done, p)

def run : Progress → List UInt8 → List Letter
  | .start, [] => []
  | .inside .., [] => [none]
  | p, b :: rest => let (done, p) := next p b.toNat; done ++ run p rest

def decode (bytes : List UInt8) : List Letter := run .start bytes

def encode (text : String) : List UInt8 := text.toList.flatMap String.utf8EncodeChar

/-- The characters, if every letter is one. -/
def chars? (letters : List Letter) : Option (List Char) := letters.mapM id

def text? (bytes : List UInt8) : Option String := (chars? (decode bytes)).map String.ofList

def lossy (bytes : List UInt8) : String :=
  String.ofList ((decode bytes).map fun letter => letter.getD replacement)

/-- The letters of a text that is sound. -/
def letters (text : String) : List Letter := text.toList.map some

end SignalHub.Utf8
