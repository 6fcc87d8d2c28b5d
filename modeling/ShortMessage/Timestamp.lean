/-!
# Instants

* `Timestamp`: an instant of universal time, to the nanosecond.
-/

namespace ShortMessage

/-- An instant: seconds since the beginning of 1970, and nanoseconds beyond them. -/
structure Timestamp where
  seconds : Int
  /-- Up to two thousand million: the second thousand million belong to a leap second. -/
  nanos : Nat
deriving DecidableEq

/-- The instant of a whole second. -/
def Timestamp.ofSeconds (seconds : Int) : Timestamp := ⟨seconds, 0⟩

end ShortMessage
