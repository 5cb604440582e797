import SignalHub.Json.Token

/-! A JSON value is written as its tokens, with nothing between them. Quotes, backslashes and the
characters below a space are escaped, five of them by a letter; all else is written as it is. -/
namespace SignalHub.Json

def hex4 (n : Nat) : List Char :=
  [n / 4096, n / 256, n / 16, n].map Hex.lastDigit

def escaped (c : Char) : List Char :=
  if c = '"' then ['\\', '"']
  else if c = '\\' then ['\\', '\\']
  else if c = '\x08' then ['\\', 'b']
  else if c = '\x0c' then ['\\', 'f']
  else if c = '\n' then ['\\', 'n']
  else if c = '\r' then ['\\', 'r']
  else if c = '\t' then ['\\', 't']
  else if c.toNat < 0x20 then '\\' :: 'u' :: hex4 c.toNat
  else [c]

/-- An unsound text is written as a lone surrogate. -/
def textChars : Option String → List Char
  | some s => '"' :: s.toList.flatMap escaped ++ ['"']
  | none => "\"\\ud800\"".toList

def Token.chars : Token → List Char
  | .mark m => [m.char]
  | .null => "null".toList
  | .bool true => "true".toList
  | .bool false => "false".toList
  | .number n => n.chars
  | .text s => textChars s

mutual

def tokens : Json → List Token
  | .null => [.null]
  | .bool b => [.bool b]
  | .number n => [.number n]
  | .text s => [.text s]
  | .array items => .mark .arrayOpen :: itemTokens items
  | .object members => .mark .objectOpen :: memberTokens members

/-- The items of an array and its end. -/
def itemTokens : List Json → List Token
  | [] => [.mark .arrayClose]
  | v :: rest => tokens v ++ moreItemTokens rest

def moreItemTokens : List Json → List Token
  | [] => [.mark .arrayClose]
  | v :: rest => .mark .comma :: tokens v ++ moreItemTokens rest

/-- The members of an object and its end. -/
def memberTokens : List (Option String × Json) → List Token
  | [] => [.mark .objectClose]
  | (name, v) :: rest => .text name :: .mark .colon :: tokens v ++ moreMemberTokens rest

def moreMemberTokens : List (Option String × Json) → List Token
  | [] => [.mark .objectClose]
  | (name, v) :: rest =>
    .mark .comma :: .text name :: .mark .colon :: tokens v ++ moreMemberTokens rest

end

def chars (v : Json) : List Char := v.tokens.flatMap Token.chars

def render (v : Json) : String := String.ofList v.chars

end SignalHub.Json
