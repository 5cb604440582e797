import SignalHub.Json.Record
import SignalHub.Text.Hex

/-! An identifier is 32 hexadecimal digits. It is written in five groups and lower case, and read in
any case with the groups, without them, in braces, or as a URN. -/
namespace SignalHub

structure Uuid where
  digits : List (Fin 16)
  length_eq : digits.length = 32
  deriving DecidableEq, Repr

namespace Uuid

def nil : Uuid := ⟨List.replicate 32 ⟨0, Nat.succ_pos 15⟩, List.length_replicate⟩

instance : Inhabited Uuid := ⟨nil⟩

/-- Puts the four hyphens into a run of 32 characters. -/
def hyphenate (cs : List Char) : List Char :=
  cs.take 8 ++ '-' :: (cs.drop 8).take 4 ++ '-' :: (cs.drop 12).take 4 ++
    '-' :: (cs.drop 16).take 4 ++ '-' :: cs.drop 20

def chars (id : Uuid) : List Char := hyphenate (id.digits.map Hex.digit)

def text (id : Uuid) : String := String.ofList id.chars

instance : ToString Uuid := ⟨text⟩

def ofSimple? (cs : List Char) : Option Uuid := do
  let digits ← cs.mapM Hex.value?
  if h : digits.length = 32 then some ⟨digits, h⟩ else none

/-- Reads five groups with a hyphen between them. -/
def ofHyphenated? (cs : List Char) : Option Uuid :=
  let simple := cs.take 8 ++ (cs.drop 9).take 4 ++ (cs.drop 14).take 4 ++ (cs.drop 19).take 4 ++
    cs.drop 24
  if cs.length = 36 ∧ hyphenate simple = cs then ofSimple? simple else none

def urn : List Char := "urn:uuid:".toList

def ofChars? (cs : List Char) : Option Uuid :=
  if cs.length = 32 then ofSimple? cs
  else if cs.length = 36 then ofHyphenated? cs
  else if cs.length = 38 then
    if cs.head? = some '\x7b' ∧ cs.getLast? = some '\x7d' then ofHyphenated? (cs.tail.take 36)
    else none
  else if cs.length = 45 then
    if (cs.take 9).map Char.toLower = urn then ofHyphenated? (cs.drop 9) else none
  else none

def parse? (text : String) : Option Uuid := ofChars? text.toList

/-- Identifiers are ordered as their digits are. -/
def before (a b : Uuid) : Bool := decide (a.digits < b.digits)

def toJson (id : Uuid) : Json := .ofString id.text

def ofJson? (v : Json) : Option Uuid := v.string?.bind parse?

end Uuid
end SignalHub
