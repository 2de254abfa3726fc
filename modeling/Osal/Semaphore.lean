import Osal.Clock.Client

/-!
# The binary semaphore

A semaphore is a flag and a bounded set of wait slots behind a lock. A thread that finds it
unavailable parks its own notification in a free slot, asks the clock for a timeout if its wait is
bounded, and blocks. A give makes the semaphore available and releases every parked thread; they
race for it, and the losers park again.

`Take.step` has one point for each place where other threads can act: before each critical section,
while the thread is blocked, and, inside a critical section, while the clock handles a request.
-/

namespace Osal

/-- A flag that threads wait for. -/
structure Semaphore where
  available : Bool
  /-- The notification of the thread parked in each wait slot. -/
  slots : List (Option NotificationId)
  /-- The clock that bounds waits, if there is one. -/
  clock : Option ClockClient := none
  /-- Whether a thread is inside a critical section and awaits the clock there. -/
  locked : Bool := false
  deriving DecidableEq

namespace Semaphore

/-- A semaphore on which a number of threads can wait at once. -/
def ofSize (initial : Bool) (maxWaiters : Nat) (clock : Option ClockClient) : Semaphore :=
  { available := initial, slots := List.replicate maxWaiters none, clock }

/-- The notifications of the parked threads, in slot order. -/
def parked (s : Semaphore) : List NotificationId := s.slots.filterMap id

def waiters (s : Semaphore) : Nat := s.parked.length

def freeSlot? (s : Semaphore) : Option Nat := s.slots.findIdx? Option.isNone

def setSlot (s : Semaphore) (i : Nat) (waiter : Option NotificationId) : Semaphore :=
  { s with slots := s.slots.set i waiter }

/-- Make the semaphore available and release every parked thread. A thread that gives is blocked,
and nothing is answered, while another is inside a critical section. -/
def give (s : Semaphore) (wakes : Wakes) : Option (Semaphore × Wakes) :=
  if s.locked then none
  else some ({ s with available := true }, wakes.signalAll s.parked .released)

def debugText (s : Semaphore) : String :=
  s!"Semaphore \x7b available: {s.available}, waiters: {s.waiters}, " ++
    s!"has_clock: {s.clock.isSome} \x7d"

end Semaphore

/-- A call of `take` by the thread that waits on a notification. A timeout of zero does not wait, a
positive one bounds the wait in milliseconds, a negative one does not. -/
structure Take where
  timeoutMs : Int32
  wait : NotificationId
  deriving DecidableEq

namespace Take

/-- Where a thread stands inside `take`. -/
inductive Point where
  /-- About to enter the first critical section. -/
  | entering
  /-- Parked, inside a critical section, and awaiting the clock's answer. -/
  | scheduling (slot : Nat)
  /-- Parked and blocked on its notification. -/
  | waiting (slot : Nat) (timeout : Option TimeoutId)
  /-- Resumed, and about to enter a critical section again. -/
  | woken (slot : Nat) (timeout : Option TimeoutId) (wake : Wakeup)
  /-- Inside a critical section, no longer parked, and awaiting the clock's answer. -/
  | cancelling (timeout : TimeoutId) (wake : Wakeup)
  deriving DecidableEq

/-- How a take ends: with the semaphore, or without it and why. -/
abbrev Outcome := Except Stop Unit

/-- Where a step inside a critical section leads. -/
abbrev Turn := Next Point Outcome

/-- The end of a take that was refused. -/
def refuse (e : Error) : Turn := .done (.error (.refused e))

/-- Whether a take asks the clock for a timeout when it parks. -/
def isBounded (t : Take) (s : Semaphore) : Bool := s.clock.isSome && 0 < t.timeoutMs

/-- Take the semaphore if it is available, else park. -/
def compete (t : Take) (s : Semaphore) : Semaphore × Turn :=
  if s.available then ({ s with available := false }, .done (.ok ()))
  else match s.freeSlot? with
    | none => (s, .done (.error (.broken (.waitQueueOverflow s.slots.length))))
    | some slot =>
      let s := s.setSlot slot (some t.wait)
      if t.isBounded s then ({ s with locked := true }, .goto (.scheduling slot))
      else (s, .goto (.waiting slot none))

/-- The first critical section: what cannot wait is refused at once. -/
def enter (t : Take) (s : Semaphore) : Semaphore × Turn :=
  if s.available then t.compete s
  else if t.timeoutMs = 0 then (s, refuse .wouldBlock)
  else if 0 < t.timeoutMs ∧ s.clock.isNone then (s, refuse .clockUnavailable)
  else t.compete s

/-- The end of a round: no wake is left behind, a timeout ends the take, and else the thread
competes again. -/
def settle (t : Take) (s : Semaphore) (wakes : Wakes) (wake : Wakeup) :
    (Semaphore × Wakes) × Turn :=
  let wakes := (wakes.drain t.wait).2
  match wake with
  | .timeout _ => ((s, wakes), refuse .timedOut)
  | .released =>
    let (s, turn) := t.compete s
    ((s, wakes), turn)

/-- One step of a thread inside `take`; it cannot take the steps in which the clock answers. -/
def step (t : Take) : Program (Semaphore × Wakes) Point Outcome := fun (s, wakes) p =>
  match p with
  | .entering =>
    if s.locked then none
    else
      let (s, turn) := t.enter s
      some ((s, wakes), turn)
  | .scheduling _ => none
  | .waiting slot timeout =>
    match wakes.poll t.wait with
    | (none, _) => none
    | (some wake, wakes) => some ((s, wakes), .goto (.woken slot timeout wake))
  | .woken slot timeout wake =>
    if s.locked then none
    else
      let s := s.setSlot slot none
      match timeout with
      | none => some (t.settle s wakes wake)
      | some id => some (({ s with locked := true }, wakes), .goto (.cancelling id wake))
  | .cancelling .. => none

/-- The request whose answer a thread awaits. -/
def request? (t : Take) : Point → Option ClockRequest
  | .scheduling _ => some (.setTimeout false t.timeoutMs.toInt.toNat.toUInt32 t.wait)
  | .cancelling id _ => some (.cancelTimeout id)
  | _ => none

/-- The step in which the clock answers. A timeout that was not granted ends the take, with the wait
slot empty again; a cancellation that failed does so only after no wake is left behind. -/
def answered (t : Take) (s : Semaphore) (wakes : Wakes) (result : CallResult NotificationId) :
    Point → (Semaphore × Wakes) × Turn
  | .scheduling slot =>
    let s := { s with locked := false }
    match ClockClient.scheduledOf result with
    | .ok timeout => ((s, wakes), .goto (.waiting slot (some timeout.id)))
    | .error e => ((s.setSlot slot none, wakes), refuse e)
  | .cancelling id wake =>
    let s := { s with locked := false }
    match ClockClient.goneOf id result with
    | .ok () => t.settle s wakes wake
    | .error e => ((s, (wakes.drain t.wait).2), refuse e)
  | p => ((s, wakes), .goto p)

end Take

end Osal
