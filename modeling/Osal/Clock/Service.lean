import Osal.Clock.Client
import Osal.Clock.Schedule
import Osal.Config
import Osal.Timer.Manual

/-!
# The clock service

The service is a tick, a schedule of timeouts and two loops. The timer loop waits for an interrupt,
advances the tick by the period, fires what is due and acknowledges the interrupt; it holds the
schedule from the store of the tick to the end of the fire. The server loop receives a call, handles
its request and replies. Reading the time needs no hold on the schedule, so it may see a tick whose
timeouts have not fired yet.

`SysClock.timerStep` and `SysClock.serverStep` are the steps of the two loops; `SysClock.runTimer`
and `SysClock.runServer` let one loop run until it is blocked.
-/

namespace Osal

/-! ## Requests -/

/-- The tick and the pending timeouts. -/
structure ClockState where
  tick : Tick := 0
  schedule : Schedule

namespace ClockState

/-- Handle a request that came through a capability with a badge. -/
def handle (s : ClockState) (badge : Badge) : ClockRequest → Reply × ClockState
  | .getTime => (.time s.tick, s)
  | .setTimeout periodic period wake =>
    match s.schedule.insert s.tick badge periodic period wake with
    | (.ok id, schedule) => (.scheduled id s.tick, { s with schedule })
    | (.error _, schedule) => (.failed .failed, { s with schedule })
  | .cancelTimeout id =>
    match s.schedule.cancel id with
    | (.ok (), schedule) => (.cancelled, { s with schedule })
    | (.error _, schedule) => (.failed .failed, { s with schedule })

/-- Answer a message: a request with what handling it gives, anything else as a bad request. -/
def serve (s : ClockState) (badge : Badge) (m : ClockMessage) : Reply × ClockState :=
  match (Request.ofMessage m).1 with
  | .ok request => s.handle badge request
  | .error _ => (.failed .badRequest, s)

/-- Advance the tick by a period. -/
def advance (s : ClockState) (period : Tick) : ClockState := { s with tick := s.tick + period }

/-- Fire what is due at the current tick. -/
def fireDue (s : ClockState) (wakes : Wakes) : ClockState × Wakes :=
  let (_, schedule, wakes) := s.schedule.fire wakes s.tick
  ({ s with schedule }, wakes)

end ClockState

/-! ## The device -/

/-- A manual timer that may refuse to be armed, and may stop after a number of interrupts or
acknowledgements. -/
structure ClockTimer where
  device : ManualTimer := {}
  refusesArming : Bool := false
  waitsLeft : Option Nat := none
  acknowledgementsLeft : Option Nat := none
  deriving DecidableEq

namespace ClockTimer

def spend (left : Option Nat) : Option Nat := left.map (· - 1)

/-- Arm the timer with a period in milliseconds. -/
def arm (t : ClockTimer) (periodMs : Tick) : Except PlatformError ClockTimer :=
  if t.refusesArming then .error .invalidPeriod
  else (t.device.setPeriodic (periodMs.toNat * 1000000)).map fun device => { t with device }

def waitInterrupt (t : ClockTimer) : Option (Except PlatformError Unit × ClockTimer) :=
  if t.waitsLeft = some 0 then some (.error .timerStopped, t)
  else t.device.waitInterrupt.map fun (r, device) =>
    (r, { t with device, waitsLeft := spend t.waitsLeft })

def acknowledge (t : ClockTimer) : Except PlatformError ClockTimer :=
  if t.acknowledgementsLeft = some 0 then .error .timerStopped
  else .ok { t with
    device := t.device.acknowledge, acknowledgementsLeft := spend t.acknowledgementsLeft }

/-- The timer after the loop that drives it has ended. -/
def stop (t : ClockTimer) : ClockTimer := { t with device := t.device.dropDevice }

end ClockTimer

/-! ## The service -/

/-- Where the timer loop stands. -/
inductive TimerPhase where
  /-- Not started. -/
  | idle
  /-- Waiting for an interrupt. -/
  | waiting
  /-- Has an interrupt, and is about to take hold of the schedule. -/
  | interrupted
  /-- Holds the schedule; the tick is stored and the due timeouts have not fired. -/
  | ticked
  /-- The due timeouts have fired, and the interrupt is not acknowledged. -/
  | fired
  /-- Ended, since the timer stopped. -/
  | ended
  deriving DecidableEq

/-- Where the server loop stands. -/
inductive ServerPhase where
  /-- Not started. -/
  | idle
  /-- Waiting for a call. -/
  | receiving
  /-- Has received a call. -/
  | handling (call : Nat)
  /-- Has the reply to a call. -/
  | replying (call : Nat) (reply : Reply)
  /-- Ended, since nobody can call any more. -/
  | ended
  deriving DecidableEq

/-- The clock service with its timer and its clients' calls. -/
structure SysClock where
  state : ClockState
  period : Tick
  timer : ClockTimer
  endpoint : Endpoint NotificationId := { servers := 0 }
  timerPhase : TimerPhase := .idle
  serverPhase : ServerPhase := .idle

namespace SysClock

/-- A stopped clock whose timer is armed. -/
def ofConfig (config : Config) (timer : ClockTimer) : Except Stop SysClock :=
  match config.validate with
  | .error e => .error (.refused (.config e.reason))
  | .ok () =>
    match timer.arm config.sysclockPeriodMs with
    | .error e => .error (.refused (.platform e))
    | .ok timer =>
      match Schedule.ofCapacity config.sysclockMaxEntries with
      | .error v => .error (.broken v)
      | .ok schedule => .ok { state := { schedule }, period := config.sysclockPeriodMs, timer }

/-- Whether the clock was started. A clock whose timer stopped still runs. -/
def isRunning (c : SysClock) : Bool := c.timerPhase != .idle

def now (c : SysClock) : Tick := c.state.tick

def pending (c : SysClock) : Nat := c.state.schedule.size

def debugText (c : SysClock) : String :=
  s!"SysClock \x7b tick: {c.now}, period_ms: {c.period}, running: {c.isRunning} \x7d"

/-- Start both loops, once. -/
def start (c : SysClock) : Except Error SysClock :=
  if c.isRunning then .error .clockAlreadyStarted
  else .ok { c with
    timerPhase := .waiting, serverPhase := .receiving,
    endpoint := { c.endpoint with servers := c.endpoint.servers + 1 } }

/-- Whether the timer loop holds the schedule. -/
def scheduleHeld (c : SysClock) : Bool := c.timerPhase == .ticked

/-- One step of the timer loop, or nothing if it is blocked or not running. -/
def timerStep (c : SysClock) (wakes : Wakes) : Option (SysClock × Wakes) :=
  match c.timerPhase with
  | .idle | .ended => none
  | .waiting =>
    c.timer.waitInterrupt.map fun
      | (.ok (), timer) => ({ c with timer, timerPhase := .interrupted }, wakes)
      | (.error _, timer) => ({ c with timer := timer.stop, timerPhase := .ended }, wakes)
  | .interrupted =>
    some ({ c with state := c.state.advance c.period, timerPhase := .ticked }, wakes)
  | .ticked =>
    let (state, wakes) := c.state.fireDue wakes
    some ({ c with state, timerPhase := .fired }, wakes)
  | .fired =>
    match c.timer.acknowledge with
    | .ok timer => some ({ c with timer, timerPhase := .waiting }, wakes)
    | .error _ => some ({ c with timer := c.timer.stop, timerPhase := .ended }, wakes)

/-- Whether handling a message needs a hold on the schedule. -/
def needsSchedule (m : ClockMessage) : Bool :=
  match (Request.ofMessage m).1 with
  | .ok .getTime | .error _ => false
  | .ok _ => true

/-- One step of the server loop, or nothing if it is blocked or not running. -/
def serverStep (c : SysClock) : Option SysClock :=
  match c.serverPhase with
  | .idle | .ended => none
  | .receiving =>
    c.endpoint.receive.map fun
      | (.ok k, endpoint) => { c with endpoint, serverPhase := .handling k }
      | (.error _, endpoint) => { c with endpoint := endpoint.dropServer, serverPhase := .ended }
  | .handling k =>
    match c.endpoint.call? k with
    | none => some { c with serverPhase := .receiving }
    | some call =>
      if needsSchedule call.message && c.scheduleHeld then none
      else
        let (reply, state) := c.state.serve call.badge call.message
        some { c with state, serverPhase := .replying k reply }
  | .replying k reply =>
    some { c with endpoint := c.endpoint.reply k reply.toMessage, serverPhase := .receiving }

/-! ## Running a loop alone -/

/-- Let the timer loop take a number of steps, or fewer if it is blocked. -/
def runTimer : Nat → SysClock → Wakes → SysClock × Wakes
  | 0, c, wakes => (c, wakes)
  | fuel + 1, c, wakes =>
    match c.timerStep wakes with
    | none => (c, wakes)
    | some (c, wakes) => runTimer fuel c wakes

/-- Let the server loop take a number of steps, or fewer if it is blocked. -/
def runServer : Nat → SysClock → SysClock
  | 0, c => c
  | fuel + 1, c =>
    match c.serverStep with
    | none => c
    | some c => runServer fuel c

/-- The timer loop takes four steps for an interrupt, and one to find out that the timer stopped. -/
def stepsPerInterrupt : Nat := 5

/-- The server loop takes three steps for a call. -/
def stepsPerCall : Nat := 3

/-- Let the timer loop handle everything that was raised. -/
def catchUp (c : SysClock) (wakes : Wakes) : SysClock × Wakes :=
  c.runTimer (stepsPerInterrupt * (c.timer.device.interrupts + 1)) wakes

/-- Let the server loop answer everything that was sent. -/
def answerAll (c : SysClock) : SysClock :=
  c.runServer (stepsPerCall * (c.endpoint.queue.length + 1))

/-- Send a message to the clock; the answer is the number of the call. -/
def send (c : SysClock) (badge : Badge) (m : ClockMessage) : Nat × SysClock :=
  let (caller, endpoint) := c.endpoint.send badge m
  (caller, { c with endpoint })

/-- Send a request, which a running clock answers at once and a stopped one when it is started; the
answer is the number of the call. -/
def submit (c : SysClock) (client : ClockClient) (request : ClockRequest) : Nat × SysClock :=
  let (caller, c) := c.send client.badge request.toMessage
  (caller, c.answerAll)

/-- Call the clock while nobody else does. A clock that was not started answers nothing. -/
def call (c : SysClock) (client : ClockClient) (request : ClockRequest) :
    Option (CallResult NotificationId) × SysClock :=
  let (caller, c) := c.submit client request
  (c.endpoint.result? caller, c)

def getTime (c : SysClock) (client : ClockClient) : Option (Except Error Tick) × SysClock :=
  let (result, c) := c.call client .getTime
  (result.map ClockClient.timeOf, c)

def schedule (c : SysClock) (client : ClockClient) (periodic : Bool) (period : Tick)
    (wake : NotificationId) : Option (Except Error ScheduledTimeout) × SysClock :=
  let (result, c) := c.call client (.setTimeout periodic period wake)
  (result.map ClockClient.scheduledOf, c)

def cancel (c : SysClock) (client : ClockClient) (id : TimeoutId) :
    Option (Except Error Unit) × SysClock :=
  let (result, c) := c.call client (.cancelTimeout id)
  (result.map (ClockClient.cancelledOf id), c)

/-- Wait for a timeout while nobody else acts: without a pending timeout wake the wait blocks. -/
def await (c : SysClock) (client : ClockClient) (w : TimeoutWait) (wakes : Wakes) :
    Option (Except Error Tick) × SysClock × Wakes :=
  match Program.run w.step 2 wakes .listening with
  | (wakes, .finished r) => (some r, c, wakes)
  | (wakes, .stalled .listening) => (none, c, wakes)
  | (wakes, .stalled (.cancelling tick)) =>
    let (result, c) := c.call client (.cancelTimeout w.id)
    (result.map (w.answered tick), c, wakes)

/-- Raise an interrupt and let it be handled before anything else happens. -/
def interrupt (c : SysClock) (wakes : Wakes) : Except PlatformError Unit × SysClock × Wakes :=
  let raised := c.timer.device.fireOn (.raise 1)
  let (c, wakes) := { c with timer := { c.timer with device := raised.1 } }.catchUp wakes
  let (device, progress) := c.timer.device.continueFire raised.2
  let c := { c with timer := { c.timer with device } }
  match progress with
  | .finished r => (r, c, wakes)
  | .stalled _ => (.error .timerStopped, c, wakes)

/-- The clock after the handle of its timer is gone. -/
def dropTimer (c : SysClock) (wakes : Wakes) : SysClock × Wakes :=
  { c with timer := { c.timer with device := c.timer.device.dropHandle } }.catchUp wakes

end SysClock

end Osal
