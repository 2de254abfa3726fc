import Osal.Error

/-!
# The interval timer

A timer that interrupts by itself once it is armed. Only the acknowledgements are counted.
-/

namespace Osal

/-- A timer that interrupts by itself. -/
structure IntervalTimer where
  armed : Bool := false
  /-- How many interrupts were acknowledged. -/
  handled : Nat := 0
  deriving DecidableEq

namespace IntervalTimer

/-- Arm the timer; the period has to be positive. -/
def setPeriodic (t : IntervalTimer) (nanos : Nat) : Except PlatformError IntervalTimer :=
  if nanos = 0 then .error .invalidPeriod else .ok { t with armed := true }

/-- Wait for the next interrupt, which an armed timer always raises. -/
def waitInterrupt (t : IntervalTimer) : Except PlatformError Unit :=
  if t.armed then .ok () else .error .timerNotArmed

def acknowledge (t : IntervalTimer) : IntervalTimer := { t with handled := t.handled + 1 }

end IntervalTimer

end Osal
