import Terminology.Calendar

/-!
Instants of universal time to the nanosecond.
-/

namespace Terminology

/-- A second counted from the first of January 1970, and nanoseconds into it. A thousand million
nanoseconds and more are in the leap second that follows the last second of a minute. -/
structure Instant where
  seconds : Int
  nanos : Nat
  within : nanos < 1000000000 ∨ (nanos < 2000000000 ∧ seconds % 60 = 59)
  deriving DecidableEq

namespace Instant

def ofParts? (seconds : Int) (nanos : Nat) : Option Instant :=
  if h : nanos < 1000000000 ∨ (nanos < 2000000000 ∧ seconds % 60 = 59) then
    some ⟨seconds, nanos, h⟩
  else none

def date (t : Instant) : Date := .ofDayNumber (t.seconds / 86400 + Date.epoch)

def year (t : Instant) : Int := t.date.year

/-- Second of the day, the leap second not counted. -/
def secondOfDay (t : Instant) : Nat := (t.seconds % 86400).toNat

def isLeapSecond (t : Instant) : Bool := 1000000000 ≤ t.nanos

end Instant

end Terminology
