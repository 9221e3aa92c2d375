/-!
# Time

Instants and durations in nanoseconds, counted from when the gateway's clock
started. Neither is bounded here. A clock that counts seconds in a word fails
where a span is doubled or added beyond it, at 2 ^ 63 seconds and more, and
what is said of such spans is not said of it.
-/

namespace Tollgate

abbrev Time := Nat

abbrev Duration := Nat

namespace Duration

def ofMillis (ms : Nat) : Duration := ms * 1000000

def ofSecs (secs : Nat) : Duration := secs * 1000000000

def wholeSecs (d : Duration) : Nat := d / 1000000000

def toMillis (d : Duration) : Nat := d / 1000000

/-- Whole seconds and the fraction are converted apart and then added. -/
def secs (d : Duration) : Float :=
  Float.ofNat (d / 1000000000) + Float.ofNat (d % 1000000000) / 1000000000.0

end Duration

end Tollgate
