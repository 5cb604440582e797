import SignalHub.Text.Hex
import SignalHub.Text.Visible

/-! How a text is shown inside a message: between quotes, with quotes and backslashes escaped, and
with an escape for each character that would not be seen. -/
namespace SignalHub.Quoted

def escape (c : Char) : List Char :=
  if c = '\x00' then ['\\', '0']
  else if c = '\t' then ['\\', 't']
  else if c = '\n' then ['\\', 'n']
  else if c = '\r' then ['\\', 'r']
  else if c = '"' then ['\\', '"']
  else if c = '\\' then ['\\', '\\']
  else if Visible.hidden c then '\\' :: 'u' :: '\x7b' :: Hex.digits c.toNat ++ ['\x7d']
  else [c]

def quote (s : String) : String := String.ofList ('"' :: s.toList.flatMap escape ++ ['"'])

def quoteList (items : List String) : String := "[" ++ ", ".intercalate (items.map quote) ++ "]"

end SignalHub.Quoted
