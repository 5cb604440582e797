import SignalHub.Json.Basic
import SignalHub.Text.Hex
import SignalHub.Text.Utf8

/-! A JSON text is read letter by letter. Outside texts the letters of a bare word are collected up
to the next blank or punctuation and looked at then; inside texts a small machine follows the
escapes. Two escapes that form a surrogate pair are one character; any other surrogate makes the
text unsound. -/
namespace SignalHub.Json

open Utf8 (Letter)

inductive Mark where
  | arrayOpen | arrayClose | objectOpen | objectClose | colon | comma
  deriving DecidableEq, Repr

namespace Mark

def char : Mark → Char
  | .arrayOpen => '['
  | .arrayClose => ']'
  | .objectOpen => '\x7b'
  | .objectClose => '\x7d'
  | .colon => ':'
  | .comma => ','

def ofChar? : Char → Option Mark
  | '[' => some .arrayOpen
  | ']' => some .arrayClose
  | '\x7b' => some .objectOpen
  | '\x7d' => some .objectClose
  | ':' => some .colon
  | ',' => some .comma
  | _ => none

end Mark

inductive Token where
  | mark (m : Mark)
  | null
  | bool (value : Bool)
  | number (value : Numeral)
  | text (value : Option String)
  deriving DecidableEq, Repr

def blank (c : Char) : Bool := c == ' ' || c == '\t' || c == '\n' || c == '\r'

def bareLetter (c : Char) : Bool :=
  c.isAlphanum || c == '+' || c == '-' || c == '.'

def bareToken? (word : List Char) : Option Token :=
  if word = "null".toList then some .null
  else if word = "true".toList then some (.bool true)
  else if word = "false".toList then some (.bool false)
  else (Numeral.parse? word).map .number

/-- What the text holds so far, last letter first; an unsound text has no letters worth keeping. -/
structure Written where
  reversed : List Char
  sound : Bool
  deriving DecidableEq, Repr

namespace Written

def none : Written := ⟨[], true⟩
def add (w : Written) (c : Char) : Written := { w with reversed := c :: w.reversed }
def spoil (w : Written) : Written := { w with sound := false }
def text (w : Written) : Option String :=
  if w.sound then some (String.ofList w.reversed.reverse) else Option.none

end Written

inductive Escape where
  | plain
  | backslash
  | hex (left : Nat) (value : Nat)
  deriving DecidableEq, Repr

inductive Scan where
  | between
  | bare (reversed : List Char)
  | inText (written : Written) (high : Option Nat) (escape : Escape)
  deriving DecidableEq, Repr

def shortEscape? : Char → Option Char
  | '"' => some '"'
  | '\\' => some '\\'
  | '/' => some '/'
  | 'b' => some '\x08'
  | 'f' => some '\x0c'
  | 'n' => some '\n'
  | 'r' => some '\r'
  | 't' => some '\t'
  | _ => none

/-- A high surrogate that waits for its partner in vain makes the text unsound. -/
def settle (w : Written) : Option Nat → Written
  | none => w
  | some _ => w.spoil

/-- The text after a sixteen-bit unit, and the high surrogate it leaves waiting. -/
def addUnit (w : Written) (high : Option Nat) (unit : Nat) : Written × Option Nat :=
  if 0xDC00 ≤ unit ∧ unit ≤ 0xDFFF then
    match high with
    | some h => (w.add (Char.ofNat (0x10000 + (h - 0xD800) * 0x400 + (unit - 0xDC00))), none)
    | none => (w.spoil, none)
  else if 0xD800 ≤ unit ∧ unit ≤ 0xDBFF then (settle w high, some unit)
  else ((settle w high).add (Char.ofNat unit), none)

/-- One letter inside a text: the text goes on in a new state, or it ends. -/
def textStep (w : Written) (high : Option Nat) : Escape → Letter → Option (Scan ⊕ Token)
  | .plain, some '"' => some (.inr (.text (settle w high).text))
  | .plain, some '\\' => some (.inl (.inText w high .backslash))
  | .plain, some c =>
    if c.toNat < 0x20 then none else some (.inl (.inText ((settle w high).add c) none .plain))
  | .plain, none => some (.inl (.inText w.spoil none .plain))
  | .backslash, some 'u' => some (.inl (.inText w high (.hex 4 0)))
  | .backslash, some c =>
    (shortEscape? c).map fun d => .inl (.inText ((settle w high).add d) none .plain)
  | .hex left value, some c =>
    (Hex.value? c).map fun d =>
      let unit := value * 16 + d.val
      if left ≤ 1 then
        .inl (.inText (addUnit w high unit).1 (addUnit w high unit).2 .plain)
      else .inl (.inText w high (.hex (left - 1) unit))
  | _, none => none

/-- One letter outside texts. -/
def outerStep (c : Char) : Option (List Token × Scan) :=
  if blank c then some ([], .between)
  else if c = '"' then some ([], .inText .none none .plain)
  else if bareLetter c then some ([], .bare [c])
  else (Mark.ofChar? c).map fun m => ([.mark m], .between)

/-- One letter: the tokens it completes, and the state after it. -/
def scanStep : Scan → Letter → Option (List Token × Scan)
  | .between, some c => outerStep c
  | .between, none => none
  | .bare word, some c =>
    if bareLetter c then some ([], .bare (c :: word))
    else do
      let token ← bareToken? word.reverse
      let (tokens, next) ← outerStep c
      return (token :: tokens, next)
  | .bare _, none => none
  | .inText w high escape, letter =>
    (textStep w high escape letter).map fun
      | .inl next => ([], next)
      | .inr token => ([token], .between)

/-- The tokens still owed at the end of the input. -/
def scanEnd : Scan → Option (List Token)
  | .between => some []
  | .bare word => (bareToken? word.reverse).map fun token => [token]
  | .inText .. => none

/-- The tokens come last first, so that each step is one push. -/
def scanAll (letters : List Letter) : Option (List Token × Scan) :=
  letters.foldlM (fun (done, scan) letter => do
    let (tokens, next) ← scanStep scan letter
    return (tokens.reverse ++ done, next)) ([], .between)

def tokens? (letters : List Letter) : Option (List Token) := do
  let (done, scan) ← scanAll letters
  let last ← scanEnd scan
  return (last.reverse ++ done).reverse

end SignalHub.Json
