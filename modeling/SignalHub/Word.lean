/-! Whole numbers with a sign that fit in 64 bits. -/
namespace SignalHub.Word

/-- Signed words go from minus this bound to just below it. -/
def signedBound : Nat := 0x8000000000000000

def isSigned (i : Int) : Bool := -(signedBound : Int) ≤ i && i < (signedBound : Int)

end SignalHub.Word
