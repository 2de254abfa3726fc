import Osal.Error
import Osal.Program

/-!
# The manual timer

A manual timer is a device and a handle that drives it. The handle raises an interrupt and waits for
its acknowledgement; the device waits for interrupts and acknowledges them. Interrupts and
acknowledgements are counted, so that neither is lost when the two sides are out of step: an
acknowledgement with no interrupt outstanding is kept for a later one, and interrupts raised before
the handle went away are still delivered.
-/

namespace Osal

/-- A device, the handle that drives it and what is on its way between them. -/
structure ManualTimer where
  /-- The period in nanoseconds, once the device is armed. -/
  period : Option Nat := none
  /-- Interrupts raised and not yet waited for. -/
  interrupts : Nat := 0
  /-- Acknowledgements that no raiser has taken yet. -/
  acknowledgements : Nat := 0
  deviceLive : Bool := true
  handleLive : Bool := true
  deriving DecidableEq

namespace ManualTimer

/-- Arm the device; the period has to be positive. -/
def setPeriodic (t : ManualTimer) (nanos : Nat) : Except PlatformError ManualTimer :=
  if nanos = 0 then .error .invalidPeriod else .ok { t with period := some nanos }

/-- Take the next interrupt. The device is blocked, and nothing is answered, while none is raised
and the handle could still raise one. -/
def waitInterrupt (t : ManualTimer) : Option (Except PlatformError Unit × ManualTimer) :=
  if t.period.isNone then some (.error .timerNotArmed, t)
  else if 0 < t.interrupts then some (.ok (), { t with interrupts := t.interrupts - 1 })
  else if t.handleLive then none
  else some (.error .timerStopped, t)

/-- Acknowledge an interrupt; without a handle nobody is waiting for it. -/
def acknowledge (t : ManualTimer) : ManualTimer :=
  if t.handleLive then { t with acknowledgements := t.acknowledgements + 1 } else t

def dropHandle (t : ManualTimer) : ManualTimer := { t with handleLive := false }

def dropDevice (t : ManualTimer) : ManualTimer := { t with deviceLive := false, period := none }

/-- Where a thread stands that raises interrupts one after another. -/
inductive FirePoint where
  /-- About to raise the next of a number of interrupts. -/
  | raise (left : Nat)
  /-- Waiting for an acknowledgement, with a number of interrupts to raise after it. -/
  | await (left : Nat)
  deriving DecidableEq

def fireStep : Program ManualTimer FirePoint (Except PlatformError Unit) := fun t p =>
  match p with
  | .raise 0 => some (t, .done (.ok ()))
  | .raise (left + 1) =>
    if t.deviceLive then some ({ t with interrupts := t.interrupts + 1 }, .goto (.await left))
    else some (t, .done (.error .timerStopped))
  | .await left =>
    if 0 < t.acknowledgements then
      some ({ t with acknowledgements := t.acknowledgements - 1 }, .goto (.raise left))
    else if t.deviceLive then none
    else some (t, .done (.error .timerStopped))

/-- The most steps a thread takes from a point. -/
def FirePoint.maxSteps : FirePoint → Nat
  | .raise left => 2 * left + 1
  | .await left => 2 * left + 2

/-- Let a thread that raises interrupts go on until it ends or has to wait. -/
def fireOn (t : ManualTimer) (p : FirePoint) :
    ManualTimer × Progress FirePoint (Except PlatformError Unit) :=
  Program.run fireStep p.maxSteps t p

/-- Let a thread that raises interrupts go on, unless it has ended. -/
def continueFire (t : ManualTimer) :
    Progress FirePoint (Except PlatformError Unit) →
      ManualTimer × Progress FirePoint (Except PlatformError Unit)
  | .stalled p => t.fireOn p
  | .finished r => (t, .finished r)

end ManualTimer

/-! ## A timer and the thread that drives it -/

/-- A manual timer and the thread that raises its interrupts, if one was started. -/
structure DrivenTimer where
  timer : ManualTimer := {}
  firing : Option (Progress ManualTimer.FirePoint (Except PlatformError Unit)) := none

namespace DrivenTimer

/-- Change the timer, and let the thread that raises interrupts go on. -/
def withTimer (d : DrivenTimer) (timer : ManualTimer) : DrivenTimer :=
  match d.firing with
  | none => { d with timer }
  | some progress =>
    let (timer, progress) := timer.continueFire progress
    { timer, firing := some progress }

/-- Start a thread that raises a number of interrupts. -/
def fire (d : DrivenTimer) (n : Nat) : DrivenTimer :=
  { d with firing := some (.stalled (.raise n)) }.withTimer d.timer

/-- How the thread that raises interrupts ended; nothing is answered while it is blocked. -/
def join (d : DrivenTimer) : Option (Except PlatformError Unit) :=
  match d.firing with
  | some (.finished r) => some r
  | _ => none

end DrivenTimer

end Osal
