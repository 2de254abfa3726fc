import Osal.Clock.Service
import Osal.Ipc.Buffer
import Osal.Ipc.Client

/-!
# Threads that share a machine

A machine is what threads share: notifications, semaphores, buffers and perhaps a running clock. An
activity is what a thread does that may block on them: take a semaphore, sleep, or fill a buffer.
`Machine.stepActivity` is one step of one activity, so the runs of several activities are the
interleavings of their steps.

A call of the clock is one step of its caller; the service handles it while the caller waits.
-/

namespace Osal

/-- What threads share. -/
structure Machine where
  wakes : Wakes := .ofCount 0
  clock : Option SysClock := none
  semaphores : Array Semaphore := #[]
  buffers : Array SharedBuffer := #[]

/-- Where a thread stands that fills a buffer: it acquires it, copies its bytes, and drops the
guard. -/
inductive FillPoint where
  | acquiring (point : SharedBuffer.AcquirePoint)
  | writing
  | dropping (result : Except Error Nat) (point : SharedBuffer.DropPoint)

/-- What a thread does. -/
inductive Activity where
  | take (semaphore : Nat) (call : Take) (point : Take.Point)
  | sleep (call : Sleep) (point : Sleep.Point)
  | fill (buffer : BufferId) (me : Tid) (call : Take) (bytes : List UInt8) (point : FillPoint)

/-- How an activity ends. -/
inductive ActivityEnd where
  | took (result : Except Stop Unit)
  | slept (result : Except Error Tick)
  | filled (result : Except Stop Nat)

namespace Machine

/-! ## Steps -/

def putSemaphore (m : Machine) (i : Nat) (next : Semaphore × Wakes) : Machine :=
  { m with semaphores := m.semaphores.setIfInBounds i next.1, wakes := next.2 }

def putBuffer (m : Machine) (b : BufferId) (next : SharedBuffer × Wakes) : Machine :=
  { m with buffers := m.buffers.setIfInBounds b next.1, wakes := next.2 }

/-- Call the clock, if there is one that answers. -/
def callClock (m : Machine) (client : ClockClient) (request : ClockRequest) :
    Option (CallResult NotificationId × Machine) :=
  m.clock.bind fun clock =>
    match clock.call client request with
    | (some result, clock) => some (result, { m with clock := some clock })
    | (none, _) => none

def takeStep (i : Nat) (call : Take) : Program Machine Take.Point Take.Outcome := fun m p => do
  let s ← m.semaphores[i]?
  match s.clock, call.request? p with
  | some client, some request =>
    let (result, m) ← m.callClock client request
    let (next, turn) := call.answered s m.wakes result p
    return (m.putSemaphore i next, turn)
  | _, _ =>
    let (next, turn) ← call.step (s, m.wakes) p
    return (m.putSemaphore i next, turn)

def sleepStep (call : Sleep) : Program Machine Sleep.Point (Except Error Tick) := fun m p =>
  match call.request? p with
  | some request =>
    (m.callClock call.client request).map fun (result, m) => (m, Sleep.answered result)
  | none => (call.step m.wakes p).map fun (wakes, turn) => ({ m with wakes }, turn)

/-- One step of the thread `me` that acquires a buffer. -/
def acquireStep (b : BufferId) (me : Tid) (call : Take) :
    Program Machine SharedBuffer.AcquirePoint (Except Stop Unit) := fun m p => do
  let buffer ← m.buffers[b]?
  match buffer.avail.clock, SharedBuffer.acquireRequest? call p with
  | some client, some request =>
    let (result, m) ← m.callClock client request
    let (next, turn) := SharedBuffer.acquireAnswered call buffer m.wakes result p
    return (m.putBuffer b next, turn)
  | _, _ =>
    let (next, turn) ← SharedBuffer.acquireStep me call (buffer, m.wakes) p
    return (m.putBuffer b next, turn)

/-- One step of the thread `me` that fills a buffer. -/
def fillStep (b : BufferId) (me : Tid) (call : Take) (bytes : List UInt8) :
    Program Machine FillPoint (Except Stop Nat) := fun m p => do
  match p with
  | .acquiring p =>
    let (m, turn) ← m.acquireStep b me call p
    return (m, match turn with
      | .goto p => .goto (.acquiring p)
      | .done (.ok ()) => .goto .writing
      | .done (.error stop) => .done (.error stop))
  | .writing =>
    let buffer ← m.buffers[b]?
    match buffer.write bytes with
    | .ok (n, buffer) =>
      return (m.putBuffer b (buffer, m.wakes), .goto (.dropping (.ok n) .giving))
    | .error e => return (m, .goto (.dropping (.error e) .giving))
  | .dropping result p =>
    let buffer ← m.buffers[b]?
    let (next, turn) ← SharedBuffer.dropStep me (buffer, m.wakes) p
    return (m.putBuffer b next, match turn with
      | .goto p => .goto (.dropping result p)
      | .done () => .done (result.mapError .refused))

/-- One step of an activity. -/
def stepActivity : Program Machine Activity ActivityEnd := fun m activity =>
  match activity with
  | .take i call p => (m.takeStep i call p).map fun (m, turn) => (m, turn.map (.take i call) .took)
  | .sleep call p => (m.sleepStep call p).map fun (m, turn) => (m, turn.map (.sleep call) .slept)
  | .fill b me call bytes p =>
    (m.fillStep b me call bytes p).map fun (m, turn) =>
      (m, turn.map (.fill b me call bytes) .filled)

/-! ## What other threads do -/

/-- Make a notification for a thread to wait on. -/
def addThread (m : Machine) : NotificationId × Machine :=
  let (wait, wakes) := m.wakes.add
  (wait, { m with wakes })

/-- Make a semaphore available. Nothing is answered while a thread is inside a critical section. -/
def give (m : Machine) (i : Nat) : Option Machine := do
  let s ← m.semaphores[i]?
  let next ← s.give m.wakes
  return m.putSemaphore i next

/-- Let the thread `me` acquire a buffer while nobody else acts; nothing is answered while it is
blocked. -/
def acquire (m : Machine) (me : Tid) (b : BufferId) (timeoutMs : Int32) :
    Option (Except Stop Unit) × Machine :=
  let (wait, m) := m.addThread
  match Program.run (acquireStep b me { timeoutMs, wait }) SharedBuffer.acquireSteps m
      (.taking .entering) with
  | (m, .finished r) => (some r, m)
  | (m, .stalled _) => (none, m)

def interrupt (m : Machine) : Except PlatformError Unit × Machine :=
  match m.clock with
  | none => (.error .timerStopped, m)
  | some clock =>
    let (result, clock, wakes) := clock.interrupt m.wakes
    (result, { m with clock := some clock, wakes })

/-- Start the clock, and let it answer the calls that were sent before. -/
def startClock (m : Machine) : Except Error Unit × Machine :=
  match m.clock.map SysClock.start with
  | none => (.error .clockUnavailable, m)
  | some (.error e) => (.error e, m)
  | some (.ok clock) =>
    let (clock, wakes) := clock.answerAll.catchUp m.wakes
    (.ok (), { m with clock := some clock, wakes })

/-- What a caller of the clock got back, if it has. -/
def resultOf (m : Machine) (caller : Nat) : Option (CallResult NotificationId) :=
  m.clock.bind fun clock => clock.endpoint.result? caller

def dropTimer (m : Machine) : Machine :=
  match m.clock with
  | none => m
  | some clock =>
    let (clock, wakes) := clock.dropTimer m.wakes
    { m with clock := some clock, wakes }

/-! ## Calls of the clock while nobody else acts -/

def getTime (m : Machine) (client : ClockClient) : Option (Except Error Tick) × Machine :=
  match m.clock with
  | none => (none, m)
  | some clock =>
    let (r, clock) := clock.getTime client
    (r, { m with clock := some clock })

def schedule (m : Machine) (client : ClockClient) (periodic : Bool) (period : Tick)
    (wake : NotificationId) : Option (Except Error ScheduledTimeout) × Machine :=
  match m.clock with
  | none => (none, m)
  | some clock =>
    let (r, clock) := clock.schedule client periodic period wake
    (r, { m with clock := some clock })

def cancel (m : Machine) (client : ClockClient) (id : TimeoutId) :
    Option (Except Error Unit) × Machine :=
  match m.clock with
  | none => (none, m)
  | some clock =>
    let (r, clock) := clock.cancel client id
    (r, { m with clock := some clock })

def await (m : Machine) (client : ClockClient) (w : TimeoutWait) :
    Option (Except Error Tick) × Machine :=
  match m.clock with
  | none => (none, m)
  | some clock =>
    let (r, clock, wakes) := clock.await client w m.wakes
    (r, { m with clock := some clock, wakes })

end Machine

end Osal
