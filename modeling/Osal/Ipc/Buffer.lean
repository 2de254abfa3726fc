import Osal.Guarded
import Osal.Semaphore

/-!
# Shared buffers

A buffer is a fixed number of bytes. Whoever takes its availability semaphore may lock the bytes and
gets a guard; dropping the guard gives the semaphore back first and then unlocks the bytes. A thread
released in between waits for the lock.
-/

namespace Osal

/-- Bytes behind a lock and an availability semaphore. -/
structure SharedBuffer where
  data : Guarded (List UInt8)
  avail : Semaphore

namespace SharedBuffer

/-- A free buffer of zeros. -/
def ofSize (size maxWaiters : Nat) (clock : Option ClockClient) : SharedBuffer :=
  { data := { value := List.replicate size 0 }, avail := .ofSize true maxWaiters clock }

def isAvailable (b : SharedBuffer) : Bool := b.avail.available

/-! ## Through a guard -/

def bytes (b : SharedBuffer) : List UInt8 := b.data.value

/-- Copy bytes to the start of the buffer, if they fit. -/
def write (b : SharedBuffer) (bytes : List UInt8) : Except Error (Nat × SharedBuffer) :=
  if bytes.length ≤ b.bytes.length then
    .ok (bytes.length, { b with data := b.data.write fun old => bytes ++ old.drop bytes.length })
  else .error (.bufferTooSmall bytes.length b.bytes.length)

def poke (b : SharedBuffer) (i : Nat) (byte : UInt8) : Except Violation SharedBuffer :=
  if i < b.bytes.length then .ok { b with data := b.data.write fun old => old.set i byte }
  else .error .indexOutOfBounds

/-! ## Acquiring -/

/-- Where a thread stands while it acquires a buffer. -/
inductive AcquirePoint where
  | taking (point : Take.Point)
  /-- Has the semaphore, and locks the bytes. -/
  | locking (point : Guarded.Point)
  /-- Was refused the lock, and gives the semaphore back. -/
  | givingBack
  deriving DecidableEq

/-- The place in an acquisition of a place in its take. -/
def ofTurn : Take.Turn → Next AcquirePoint (Except Stop Unit)
  | .goto p => .goto (.taking p)
  | .done (.ok ()) => .goto (.locking (.locking .lockCheck))
  | .done (.error stop) => .done (.error stop)

/-- The end of an acquisition, or its next place, after the attempt to lock the bytes. -/
def ofLock : Next Guarded.Point Guarded.Outcome → Next AcquirePoint (Except Stop Unit)
  | .goto p => .goto (.locking p)
  | .done .alreadyBorrowed => .done (.error (.broken .alreadyBorrowed))
  | .done .overflow => .goto .givingBack
  | .done _ => .done (.ok ())

/-- One step of the thread `me` that acquires a buffer. -/
def acquireStep (me : Tid) (t : Take) :
    Program (SharedBuffer × Wakes) AcquirePoint (Except Stop Unit) := fun (b, wakes) p =>
  match p with
  | .taking p =>
    (t.step (b.avail, wakes) p).map fun ((avail, wakes), next) =>
      (({ b with avail }, wakes), ofTurn next)
  | .locking p =>
    (Guarded.step me b.data p).map fun (data, next) => (({ b with data }, wakes), ofLock next)
  | .givingBack =>
    (b.avail.give wakes).map fun (avail, wakes) =>
      (({ b with avail }, wakes), .done (.error (.refused .recursionOverflow)))

def acquireRequest? (t : Take) : AcquirePoint → Option ClockRequest
  | .taking p => t.request? p
  | _ => none

/-- The step in which the clock answers an acquiring thread. -/
def acquireAnswered (t : Take) (b : SharedBuffer) (wakes : Wakes)
    (result : CallResult NotificationId) :
    AcquirePoint → (SharedBuffer × Wakes) × Next AcquirePoint (Except Stop Unit)
  | .taking p =>
    let ((avail, wakes), next) := t.answered b.avail wakes result p
    (({ b with avail }, wakes), ofTurn next)
  | p => ((b, wakes), .goto p)

/-- An acquisition that does not block takes one step for the semaphore, some for the lock, and one
to give the semaphore back; one that the clock refuses ends after two. -/
def acquireSteps : Nat := Guarded.maxSteps + 2

/-! ## Dropping a guard -/

/-- Where a thread stands while it drops its guard. -/
inductive DropPoint where
  /-- About to give the semaphore back. -/
  | giving
  | unlocking (point : Guarded.Point)
  deriving DecidableEq

def dropStep (me : Tid) : Program (SharedBuffer × Wakes) DropPoint Unit := fun (b, wakes) p =>
  match p with
  | .giving =>
    (b.avail.give wakes).map fun (avail, wakes) =>
      (({ b with avail }, wakes), .goto (.unlocking .endLoan))
  | .unlocking p =>
    (Guarded.step me b.data p).map fun (data, next) =>
      (({ b with data }, wakes), match next with
        | .goto p => .goto (.unlocking p)
        | .done _ => .done ())

/-- Let a thread drop its guard without a break. -/
def drop (me : Tid) (b : SharedBuffer) (wakes : Wakes) : SharedBuffer × Wakes :=
  (Program.run (dropStep me) (Guarded.maxSteps + 1) (b, wakes) .giving).1

/-- The size of a buffer, read under the lock: a thread that has a guard of the buffer cannot. -/
def capacity (me : Tid) (b : SharedBuffer) : Except Violation Nat :=
  match b.data.lock me with
  | (_, .finished .guarded) => .ok b.bytes.length
  | _ => .error .alreadyBorrowed

end SharedBuffer

end Osal
