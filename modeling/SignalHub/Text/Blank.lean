/-! The characters with the Unicode property White_Space, and what remains of a text without the
blanks at its ends. A text is blank when nothing remains. -/
namespace SignalHub.Blank

def isBlank (c : Char) : Bool :=
  let n := c.toNat
  (9 ≤ n && n ≤ 13) || n == 0x20 || n == 0x85 || n == 0xA0 || n == 0x1680 ||
  (0x2000 ≤ n && n ≤ 0x200A) || n == 0x2028 || n == 0x2029 || n == 0x202F || n == 0x205F ||
  n == 0x3000

/-- The list without its last elements that satisfy `p`. -/
def dropEnd (p : Char → Bool) (cs : List Char) : List Char := (cs.reverse.dropWhile p).reverse

def trimmed (cs : List Char) : List Char := dropEnd isBlank (cs.dropWhile isBlank)

def trim (text : String) : String := String.ofList (trimmed text.toList)

def blank (text : String) : Bool := text.toList.all isBlank

end SignalHub.Blank
