import SignalHub.Json.Printer

/-! What the hub has counted since it started. Counters are 64-bit words and wrap. -/
namespace SignalHub

structure Counters where
  registered : UInt64
  superseded : UInt64
  unregistered : UInt64
  forwarded : UInt64
  misses : UInt64
  dropped : UInt64
  deriving DecidableEq, Repr

namespace Counters

def zero : Counters := ⟨0, 0, 0, 0, 0, 0⟩

def toJson (c : Counters) : Json :=
  .ofMembers [("registered_total", .ofNat c.registered.toNat),
    ("superseded_total", .ofNat c.superseded.toNat),
    ("unregistered_total", .ofNat c.unregistered.toNat),
    ("forwarded_total", .ofNat c.forwarded.toNat),
    ("forward_misses_total", .ofNat c.misses.toNat),
    ("dropped_total", .ofNat c.dropped.toNat)]

end Counters
end SignalHub
