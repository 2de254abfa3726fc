/-!
# Notifications

A notification is a place for one wake. A signal that finds a wake pending is coalesced: the pending
wake keeps its payload and the new one is dropped. `Wakes` is the set of notifications that threads
wait on, each addressed by its number.
-/

namespace Osal

/-- Milliseconds of system time, counted modulo two to the thirty-second. -/
abbrev Tick := UInt32

/-- Why a blocked thread was resumed. -/
inductive Wakeup where
  /-- Released by what it was waiting for. -/
  | released
  /-- A timeout fired. -/
  | timeout (tick : Tick)
  deriving DecidableEq

/-- A place for one pending wake with a payload. -/
structure Notification (α : Type) where
  pending : Option α := none
  /-- Whether the waiting side still exists. -/
  live : Bool := true
  deriving DecidableEq

namespace Notification

variable {α : Type}

def isPending (n : Notification α) : Bool := n.pending.isSome

/-- Leave a wake; the answer tells whether it was delivered. -/
def signal (n : Notification α) (payload : α) : Bool × Notification α :=
  if n.live && n.pending.isNone then (true, { n with pending := some payload }) else (false, n)

/-- Consume the pending wake, if there is one. -/
def poll (n : Notification α) : Option α × Notification α := (n.pending, { n with pending := none })

/-- Discard the pending wake; the answer counts what was discarded. -/
def drain (n : Notification α) : Nat × Notification α :=
  (if n.isPending then 1 else 0, { n with pending := none })

/-- The notification after its waiting side is gone; nothing is delivered to it any more. -/
def close (n : Notification α) : Notification α := { n with live := false }

def signallerText (n : Notification α) : String := s!"Signaller \x7b pending: {n.isPending} \x7d"

end Notification

/-- The number of a notification; holding it is the capability to signal it. -/
abbrev NotificationId := Nat

/-- The notifications of a system. -/
structure Wakes where
  cells : Array (Notification Wakeup)
  deriving DecidableEq

namespace Wakes

/-- A number of notifications without pending wakes. -/
def ofCount (n : Nat) : Wakes := ⟨Array.replicate n {}⟩

def size (w : Wakes) : Nat := w.cells.size

/-- A notification; one that was never made receives nothing. -/
def get (w : Wakes) (id : NotificationId) : Notification Wakeup :=
  w.cells.getD id { live := false }

def set (w : Wakes) (id : NotificationId) (n : Notification Wakeup) : Wakes :=
  ⟨w.cells.setIfInBounds id n⟩

def add (w : Wakes) : NotificationId × Wakes := (w.size, ⟨w.cells.push {}⟩)

def signal (w : Wakes) (id : NotificationId) (wake : Wakeup) : Bool × Wakes :=
  let (delivered, n) := (w.get id).signal wake
  (delivered, w.set id n)

def poll (w : Wakes) (id : NotificationId) : Option Wakeup × Wakes :=
  let (wake, n) := (w.get id).poll
  (wake, w.set id n)

def drain (w : Wakes) (id : NotificationId) : Nat × Wakes :=
  let (count, n) := (w.get id).drain
  (count, w.set id n)

def close (w : Wakes) (id : NotificationId) : Wakes := w.set id (w.get id).close

def isPending (w : Wakes) (id : NotificationId) : Bool := (w.get id).isPending

def signallerText (w : Wakes) (id : NotificationId) : String := (w.get id).signallerText

/-- Leave the same wake in several notifications. -/
def signalAll (w : Wakes) (ids : List NotificationId) (wake : Wakeup) : Wakes :=
  ids.foldl (fun w id => (w.signal id wake).2) w

end Wakes

end Osal
