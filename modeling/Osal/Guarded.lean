import Osal.Error
import Osal.Mutex

/-!
# Guarded values

A value behind a recursive mutex is lent to one guard at a time. The flag that says whether it is
lent is touched only by the thread that owns the mutex. A second guard for the same thread is
refused, and the depth that was gained on the way is given back.

A guard ends its loan before it releases the mutex.
-/

namespace Osal

/-- A value behind a mutex. -/
structure Guarded (α : Type) where
  mutex : Mutex := .new
  /-- Whether a guard of the value is alive. -/
  lent : Bool := false
  value : α

namespace Guarded

variable {α : Type}

/-- Where a thread stands while it makes or drops a guard. -/
inductive Point where
  | locking (point : Mutex.Point)
  /-- Owns the mutex, and is about to borrow the value. -/
  | borrow
  /-- Was refused the value, and gives back the depth it gained. -/
  | unwinding (point : Mutex.Point)
  /-- About to end its loan. -/
  | endLoan
  | unlocking (point : Mutex.Point)
  deriving DecidableEq

/-- How making or dropping a guard ends. -/
inductive Outcome where
  | guarded
  | overflow
  | alreadyBorrowed
  | released
  deriving DecidableEq

/-- One atomic step of the thread `me`. -/
def step (me : Tid) : Program (Guarded α) Point Outcome := fun g p =>
  match p with
  | .locking p =>
    (Mutex.step me g.mutex p).map fun
      | (mutex, .goto p) => ({ g with mutex }, .goto (.locking p))
      | (mutex, .done .locked) => ({ g with mutex }, .goto .borrow)
      | (mutex, .done _) => ({ g with mutex }, .done .overflow)
  | .borrow =>
    if g.lent then some (g, .goto (.unwinding .unlockCheck))
    else some ({ g with lent := true }, .done .guarded)
  | .unwinding p =>
    (Mutex.step me g.mutex p).map fun
      | (mutex, .goto p) => ({ g with mutex }, .goto (.unwinding p))
      | (mutex, .done _) => ({ g with mutex }, .done .alreadyBorrowed)
  | .endLoan => some ({ g with lent := false }, .goto (.unlocking .unlockCheck))
  | .unlocking p =>
    (Mutex.step me g.mutex p).map fun
      | (mutex, .goto p) => ({ g with mutex }, .goto (.unlocking p))
      | (mutex, .done _) => ({ g with mutex }, .done .released)

/-- No run of the guard program takes more steps than this. -/
def maxSteps : Nat := 2 * Mutex.maxSteps + 2

/-- Let a thread go on from a point until it ends or has to wait. -/
def resume (me : Tid) (g : Guarded α) (p : Point) : Guarded α × Progress Point Outcome :=
  Program.run (step me) maxSteps g p

/-- Let a thread make a guard, or get as far as waiting for the mutex. -/
def lock (me : Tid) (g : Guarded α) : Guarded α × Progress Point Outcome :=
  g.resume me (.locking .lockCheck)

/-- Let a thread drop its guard. -/
def release (me : Tid) (g : Guarded α) : Guarded α :=
  (g.resume me .endLoan).1

def write (g : Guarded α) (f : α → α) : Guarded α := { g with value := f g.value }

/-- Make a guard, change the value and drop the guard, also when the change ends in a raised
violation. A thread that is refused the guard changes nothing. -/
def update (me : Tid) (g : Guarded α) (f : α → α) : Guarded α :=
  match g.lock me with
  | (g, .finished .guarded) => (g.write f).release me
  | (g, _) => g

/-- The outcome of an attempt to make a guard while a guard of the same thread is alive, in the
middle of two changes. -/
def nestedUpdate (me : Tid) (g : Guarded α) (f : α → α) : Option Outcome × Guarded α :=
  match g.lock me with
  | (g, .finished .guarded) =>
    match (g.write f).lock me with
    | (g, .finished o) => (some o, (g.write f).release me)
    | (g, .stalled _) => (none, g.release me)
  | (g, _) => (none, g)

end Guarded

end Osal
