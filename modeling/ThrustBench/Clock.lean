import ThrustBench.Decimal.Basic

/-!
A clock of whole microseconds.  Each look at it may take some time itself.
-/

namespace ThrustBench

/-- The time in microseconds, and how much of it passes at each look. -/
structure Clock where
  now : Int := 1000000000
  tick : Int := 0
  deriving DecidableEq

namespace Clock

def seconds (micros : Int) : Binary64 := (Binary64.ofInt micros).div (Binary64.ofInt 1000000)

def look (c : Clock) : Binary64 × Clock := (seconds c.now, { c with now := c.now + c.tick })

def advance (c : Clock) (micros : Int) : Clock := { c with now := c.now + micros }

/-- How many microseconds a wait of some seconds takes: the nearest number of them, one at least. -/
def micros (seconds : Binary64) : Int :=
  max 1 ((seconds.mul (Binary64.ofInt 1000000)).roundToInt)

def wait (c : Clock) (seconds : Binary64) : Clock :=
  if (Binary64.zero false).lt seconds then c.advance (micros seconds) else c

def elapsed (c : Clock) (since : Int) : Int := (c.now - since).fdiv 1000

end Clock

end ThrustBench
