import Osal.Clock.Protocol
import Osal.Endpoint
import Osal.Notification
import Osal.Program

/-!
# Clients of the clock

A client turns each operation into a request and reads the reply it gets back. The same status means
different things to different operations: a failed request is a full schedule to one that schedules,
and a timeout that is not pending to one that cancels.

Waiting for a timeout and sleeping are programs, since other threads act while the client waits.
-/

namespace Osal

/-- A capability to call the clock. -/
structure ClockClient where
  badge : Badge
  deriving DecidableEq

/-- A timeout as the clock answers it. -/
structure ScheduledTimeout where
  id : TimeoutId
  insertedAt : Tick
  deriving DecidableEq

/-- The capability to signal a notification, as requests to the clock carry it. -/
abbrev ClockRequest := Request NotificationId

/-- A message to or from the clock. -/
abbrev ClockMessage := Message NotificationId

namespace ClockClient

def debugText (c : ClockClient) : String := s!"ClockClient \x7b badge: {c.badge} \x7d"

/-- The refusal of a reply that does not answer the request. -/
def unexpected (r : Reply) : Error := (ProtocolFault.unexpectedReply r.debugText).toError

/-- The reply in the result of a call. -/
def replyOf (opcode : Opcode) (result : CallResult NotificationId) : Except Error Reply :=
  match result with
  | .error e => .error (.platform e)
  | .ok m =>
    match Reply.ofMessage opcode.toWord m with
    | .ok reply => .ok reply
    | .error f => .error f.toError

def timeOf (result : CallResult NotificationId) : Except Error Tick := do
  match ← replyOf .getTime result with
  | .time tick => .ok tick
  | other => .error (unexpected other)

/-- The timeout in the result of asking for one. -/
def scheduledOf (result : CallResult NotificationId) : Except Error ScheduledTimeout := do
  match ← replyOf .setTimeout result with
  | .scheduled id insertedAt => .ok { id, insertedAt }
  | .failed .failed => .error .schedulerFull
  | other => .error (unexpected other)

/-- Whether the result of a cancellation says that a timeout was cancelled. -/
def cancelledOf (id : TimeoutId) (result : CallResult NotificationId) : Except Error Unit := do
  match ← replyOf .cancelTimeout result with
  | .cancelled => .ok ()
  | .failed .failed => .error (.timeoutNotFound id)
  | other => .error (unexpected other)

/-- As `cancelledOf`, where a timeout that is already gone is as good as cancelled. -/
def goneOf (id : TimeoutId) (result : CallResult NotificationId) : Except Error Unit :=
  match cancelledOf id result with
  | .error (.timeoutNotFound _) => .ok ()
  | other => other

end ClockClient

/-! ## Waiting for a timeout -/

/-- A wait for a timeout to fire, after which the timeout may be cancelled. -/
structure TimeoutWait where
  id : TimeoutId
  /-- The notification that the timeout is delivered to. -/
  wait : NotificationId
  cancel : Bool
  deriving DecidableEq

namespace TimeoutWait

/-- Where a thread stands while it waits for a timeout. -/
inductive Point where
  /-- Blocked on the notification; a release is skipped. -/
  | listening
  /-- Has the tick, and awaits the answer to its cancellation. -/
  | cancelling (tick : Tick)
  deriving DecidableEq

/-- One step of a thread that waits; it cannot take the step in which the clock answers. -/
def step (w : TimeoutWait) : Program Wakes Point (Except Error Tick) := fun wakes p =>
  match p with
  | .listening =>
    match wakes.poll w.wait with
    | (none, _) => none
    | (some .released, wakes) => some (wakes, .goto .listening)
    | (some (.timeout tick), wakes) =>
      some (wakes, if w.cancel then .goto (.cancelling tick) else .done (.ok tick))
  | .cancelling _ => none

def request? (w : TimeoutWait) : Point → Option ClockRequest
  | .listening => none
  | .cancelling _ => some (.cancelTimeout w.id)

/-- How the wait ends when the clock answers the cancellation. -/
def answered (w : TimeoutWait) (tick : Tick) (result : CallResult NotificationId) :
    Except Error Tick :=
  (ClockClient.goneOf w.id result).map fun _ => tick

/-- A thread that waits while wakes arrive one by one: the notifications it leaves behind, and where
it stands or how it ended. -/
def hear (w : TimeoutWait) (wakes : Wakes) :
    List Wakeup → Wakes × Progress Point (Except Error Tick)
  | [] => (wakes, .stalled .listening)
  | wake :: rest =>
    match Program.run w.step 2 (wakes.signal w.wait wake).2 .listening with
    | (wakes, .stalled .listening) => w.hear wakes rest
    | other => other

end TimeoutWait

/-! ## Sleeping -/

/-- A thread that sleeps for a number of milliseconds on its own notification. -/
structure Sleep where
  client : ClockClient
  ms : Tick
  wait : NotificationId
  deriving DecidableEq

namespace Sleep

/-- Where a thread stands while it sleeps. -/
inductive Point where
  /-- Awaits the answer to its request for a timeout. -/
  | scheduling
  | sleeping (id : TimeoutId)
  deriving DecidableEq

def timeoutWait (s : Sleep) (id : TimeoutId) : TimeoutWait :=
  { id, wait := s.wait, cancel := false }

/-- One step of a thread that sleeps; it cannot take the step in which the clock answers. -/
def step (s : Sleep) : Program Wakes Point (Except Error Tick) := fun wakes p =>
  match p with
  | .scheduling => none
  | .sleeping id =>
    ((s.timeoutWait id).step wakes .listening).map fun
      | (wakes, .goto _) => (wakes, .goto (.sleeping id))
      | (wakes, .done tick) => (wakes, .done tick)

def request? (s : Sleep) : Point → Option ClockRequest
  | .scheduling => some (.setTimeout false s.ms s.wait)
  | .sleeping _ => none

/-- Where a thread stands once the clock answered its request. -/
def answered (result : CallResult NotificationId) : Next Point (Except Error Tick) :=
  match ClockClient.scheduledOf result with
  | .ok timeout => .goto (.sleeping timeout.id)
  | .error e => .done (.error e)

/-- How a sleep ends for which the clock answers with a result, and then wakes arrive one by one; a
sleep that none of them ends goes on. -/
def hear (s : Sleep) (result : CallResult NotificationId) (wakes : Wakes) (signals : List Wakeup) :
    Option (Except Error Tick) :=
  match answered result with
  | .done r => some r
  | .goto .scheduling => none
  | .goto (.sleeping id) =>
    match ((s.timeoutWait id).hear wakes signals).2 with
    | .finished r => some r
    | .stalled _ => none

end Sleep

end Osal
