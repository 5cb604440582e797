import SignalHub.Json.Numeral

/-! JSON values. A text in one is `none` when its letters are no characters: a lone surrogate
escape, or bytes that are not UTF-8. Such a text is well written, but nobody can keep it. `keep`
gives the value a reader holds that keeps everything: nested no deeper than it has room for, with
sound texts and finite numbers, and with the last of the members that share a name. -/
namespace SignalHub

inductive Json where
  | null
  | bool (value : Bool)
  | number (value : Json.Numeral)
  | text (value : Option String)
  | array (items : List Json)
  | object (members : List (Option String × Json))
  deriving Repr

namespace Json

def ofString (s : String) : Json := .text (some s)
def ofInt (i : Int) : Json := .number (.ofInt i)
def ofNat (n : Nat) : Json := ofInt n
def ofMembers (members : List (String × Json)) : Json :=
  .object (members.map fun (name, value) => (some name, value))

/-- The members without those whose name comes again later. -/
def lastOnly : List (Option String × Json) → List (Option String × Json)
  | [] => []
  | m :: rest =>
    if rest.any fun other => other.1 == m.1 then lastOnly rest else m :: lastOnly rest

mutual

/-- The value as kept by a reader with room for `room` nested arrays and objects. -/
def keep : Nat → Json → Option Json
  | _, .null => some .null
  | _, .bool b => some (.bool b)
  | _, .number n => if n.finite then some (.number n) else none
  | _, .text s => s.map fun sound => .text (some sound)
  | 0, .array _ => none
  | room + 1, .array items => (keepItems room items).map .array
  | 0, .object _ => none
  | room + 1, .object members => (keepMembers room members).map fun kept => .object (lastOnly kept)

def keepItems : Nat → List Json → Option (List Json)
  | _, [] => some []
  | room, v :: rest => do
    let kept ← keep room v
    let more ← keepItems room rest
    return kept :: more

def keepMembers : Nat → List (Option String × Json) → Option (List (Option String × Json))
  | _, [] => some []
  | room, (name, v) :: rest => do
    let name ← name
    let kept ← keep room v
    let more ← keepMembers room rest
    return (some name, kept) :: more

end

def string? : Json → Option String
  | .text s => s
  | _ => none

def bool? : Json → Option Bool
  | .bool b => some b
  | _ => none

def integer? : Json → Option Int
  | .number n => n.integer?
  | _ => none

def below? (bound : Nat) (v : Json) : Option Nat :=
  match v.integer? with
  | some (.ofNat n) => if n < bound then some n else none
  | _ => none

def word64? (v : Json) : Option Nat := v.below? UInt64.size

def list? (item : Json → Option α) : Json → Option (List α)
  | .array items => items.mapM item
  | _ => none

/-- A value or null. -/
def nullable? (value : Json → Option α) : Json → Option (Option α)
  | .null => some none
  | v => (value v).map some

end Json
end SignalHub
