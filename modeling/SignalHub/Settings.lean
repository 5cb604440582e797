/-! Settings of connections. Times are counted in nanoseconds. Pings are sent every nine tenths of
the time a connection may stay silent; a silence so long that nine times it is no duration has no
settings. -/
namespace SignalHub

structure Settings where
  capacity : Nat
  writeWait : Nat
  pongWait : Nat
  pingPeriod : Nat
  maxMessageBytes : Nat
  deriving DecidableEq, Repr

namespace Settings

inductive Error where
  | overflow
  deriving DecidableEq, Repr

def Error.message : Error → String
  | .overflow => "overflow when multiplying duration by scalar"

def second : Nat := 1000000000
def millisecond : Nat := 1000000

/-- The first number of seconds that is too long for a duration. -/
def maxSeconds : Nat := UInt64.size

def make (capacity writeWait pongWait maxMessageBytes : Nat) : Except Error Settings :=
  if pongWait * 9 / second < maxSeconds then
    .ok ⟨max capacity 1, writeWait, pongWait, pongWait * 9 / 10, maxMessageBytes⟩
  else .error .overflow

def defaultCapacity : Nat := 256
def defaultMaxMessageBytes : Nat := 512 * 1024

def standard : Settings :=
  ⟨defaultCapacity, 10 * second, 60 * second, 54 * second, defaultMaxMessageBytes⟩

end Settings
end SignalHub
