import Osal.Capability.Space
import Osal.Notification
import Osal.Pool

/-!
# The timeout schedule

Pending timeouts live in a pool. The wake capability that a requester hands over is minted into a
private capability space, and the minted pointer is the name of the timeout until it leaves the
schedule.

Ticks wrap. A deadline counts as reached when the tick is less than half the range past it.
-/

namespace Osal

/-- Whether a deadline lies less than half the range of ticks behind the current tick. -/
def tickReached (now deadline : Tick) : Bool := now - deadline < 2147483647

/-- A pending timeout. -/
structure TimeoutEntry where
  id : TimeoutId
  /-- The badge of the capability the request came through. -/
  requester : Badge
  periodic : Bool
  period : Tick
  nextFire : Tick
  deriving DecidableEq

/-- What a free slot of a schedule holds; nothing reads it. -/
def TimeoutEntry.blank : TimeoutEntry :=
  { id := ⟨.ofNat 1, by decide⟩, requester := 0, periodic := false, period := 0, nextFire := 0 }

/-- The entry after a fire: a deadline one period on, or one period from now if that is already
reached. -/
def TimeoutEntry.rearm (e : TimeoutEntry) (now : Tick) : TimeoutEntry :=
  let next := e.nextFire + e.period
  { e with nextFire := if tickReached now next then now + e.period else next }

/-- A bounded set of pending timeouts. -/
structure Schedule where
  entries : Pool TimeoutEntry
  caps : CapSpace NotificationId

namespace Schedule

def ofCapacity (capacity : Nat) : Except Violation Schedule :=
  (Pool.blank capacity TimeoutEntry.blank fun a b => a.id == b.id).map fun entries =>
    { entries, caps := .empty capacity }

def capacity (s : Schedule) : Nat := s.entries.capacity

def size (s : Schedule) : Nat := s.entries.size

def isEmpty (s : Schedule) : Bool := s.size == 0

/-- The pending timeouts in the order in which they were scheduled. -/
def pending (s : Schedule) : List TimeoutEntry := s.entries.toList.map (·.2)

def find (s : Schedule) (id : TimeoutId) : Option Handle :=
  s.entries.find { TimeoutEntry.blank with id }

def contains (s : Schedule) (id : TimeoutId) : Bool := (s.find id).isSome

def get? (s : Schedule) (id : TimeoutId) : Option TimeoutEntry :=
  (s.find id).bind s.entries.get?

/-- Add a timeout that fires one period from now. -/
def insert (s : Schedule) (now : Tick) (requester : Badge) (periodic : Bool) (period : Tick)
    (wake : NotificationId) : Except Error TimeoutId × Schedule :=
  if s.entries.isExhausted then (.error .schedulerFull, s)
  else match s.caps.mint wake requester .write with
    | .error _ => (.error .schedulerFull, s)
    | .ok (ptr, caps) =>
      match s.entries.allocate with
      | .error _ =>
        let caps := ((caps.revoke ptr.1).map (·.2)).toOption.getD caps
        (.error .schedulerFull, { s with caps })
      | .ok (slot, entries) =>
        let id : TimeoutId := ⟨ptr.1, ptr.2⟩
        let entry := { id, requester, periodic, period, nextFire := now + period }
        (.ok id, { entries := entries.modifyAt slot.index fun _ => entry, caps })

/-- Remove a pending timeout and revoke its wake capability. -/
def cancel (s : Schedule) (id : TimeoutId) : Except Error Unit × Schedule :=
  match s.find id with
  | none => (.error (.timeoutNotFound id), s)
  | some slot =>
    match s.entries.free slot with
    | .error e => (.error e, s)
    | .ok entries =>
      match s.caps.revoke id.cptr with
      | .error e => (.error (.platform e), { s with entries })
      | .ok (_, caps) => (.ok (), { entries, caps })

/-! ## Firing -/

/-- What a fire changes besides the entries: the count of fired timeouts, the capabilities and the
notifications. -/
structure Firing where
  fired : Nat
  caps : CapSpace NotificationId
  wakes : Wakes

/-- Signal the wake capability of a timeout. A wake that is coalesced, or whose receiver is gone,
changes nothing else. -/
def Firing.deliver (f : Firing) (id : TimeoutId) (now : Tick) : Firing :=
  match f.caps.lookupWith id.cptr .write with
  | .ok wake => { f with wakes := (f.wakes.signal wake (.timeout now)).2 }
  | .error _ => f

/-- Take back the wake capability of a timeout. -/
def Firing.revoke (f : Firing) (id : TimeoutId) : Firing :=
  match f.caps.revoke id.cptr with
  | .ok (_, caps) => { f with caps }
  | .error _ => f

/-- Visit one entry: a due one is delivered, and then re-armed if it is periodic, else released. -/
def fireEntry (now : Tick) : Pool.Visitor Firing TimeoutEntry := fun f _ e =>
  if tickReached now e.nextFire then
    let f := { f.deliver e.id now with fired := f.fired + 1 }
    if e.periodic then (f, e.rearm now, .keep) else (f.revoke e.id, e, .release)
  else (f, e, .keep)

/-- Deliver every timeout that is due. The answer counts them. -/
def fire (s : Schedule) (wakes : Wakes) (now : Tick) : Nat × Schedule × Wakes :=
  let (f, _, entries) := s.entries.sweep { fired := 0, caps := s.caps, wakes } (fireEntry now)
  (f.fired, { entries, caps := f.caps }, f.wakes)

def debugText (s : Schedule) : String :=
  s!"TimeoutSchedule \x7b pending: {s.size}, capacity: {s.capacity} \x7d"

end Schedule

end Osal
