import Mathlib.Logic.Function.Basic
import Osal.Clock.Service
import Osal.Proofs.Clock.Schedule
import Osal.Proofs.Semaphore.Places

/-!
# Threads, semaphores and one clock

An ensemble is any number of threads that take semaphores and sleep, the semaphores, and the clock
that they all ask for timeouts. The clock takes its time: between a thread's request and the reply,
and between the reply and the thread that reads it, anything can happen. A fire holds the schedule
and signals its timeouts one by one, and other threads go on in between; `run_deliver` says that it
is the fire of the clock if they do not.

The history tells what happened, the latest first. Calls are numbered, so that it can tell which
call a timeout was scheduled for.
-/

namespace Osal

/-! ## Calls -/

/-- What a thread does that is inside a blocking call, and where it stands. -/
inductive BlockingTask where
  | take (semaphore : Nat) (timeoutMs : Int32) (point : Take.Point)
  | sleep (client : ClockClient) (ms : Tick) (point : Sleep.Point)

/-- A blocking call, and the reply of the clock that its thread has not read yet. -/
structure BlockingCall where
  number : Nat
  task : BlockingTask
  reply : Option Reply := none

/-- What the history of an ensemble tells. -/
inductive Happening where
  /-- The clock granted a timeout to a call. -/
  | scheduled (call : Nat) (id : TimeoutId)
  /-- A timeout signalled its notification. -/
  | fired (id : TimeoutId) (tick : Tick)
  | took (call : Nat) (timeoutMs : Int32) (outcome : Take.Outcome)
  | slept (call : Nat) (outcome : Except Error Tick)

/-- Threads, each waiting on the notification of its own number, and what they share. -/
structure Ensemble where
  semaphores : Nat → Semaphore
  clock : ClockState
  wakes : Wakes
  /-- The call that a thread is inside of. -/
  threads : NotificationId → Option BlockingCall := fun _ => none
  /-- The signals that a fire at the current tick has still to send. -/
  outgoing : List (TimeoutId × NotificationId) := []
  /-- How many calls there have been. -/
  calls : Nat := 0
  history : List Happening := []

/-- What can happen to an ensemble. An event that is impossible at its moment changes nothing. -/
inductive EnsembleEvent where
  | take (thread : NotificationId) (semaphore : Nat) (timeoutMs : Int32)
  | sleep (thread : NotificationId) (client : ClockClient) (ms : Tick)
  | give (semaphore : Nat)
  /-- The thread takes a step, unless it is blocked. -/
  | step (thread : NotificationId)
  /-- The clock handles the request of the thread. -/
  | serve (thread : NotificationId)
  /-- The clock advances and starts to fire. -/
  | tick (period : Tick)
  /-- The fire sends its next signal. -/
  | deliver

namespace Ensemble

def start (threads : Nat) (initial : Nat → Bool) (maxWaiters : Nat → Nat)
    (clocks : Nat → Option ClockClient) (clock : ClockState) : Ensemble :=
  { semaphores := fun i => .ofSize (initial i) (maxWaiters i) (clocks i)
    clock, wakes := .ofCount threads }

def put (e : Ensemble) (k : NotificationId) (call : Option BlockingCall) (wakes : Wakes)
    (news : List Happening) : Ensemble :=
  { e with wakes, threads := Function.update e.threads k call, history := news ++ e.history }

def begin (e : Ensemble) (k : NotificationId) (task : BlockingTask) : Ensemble :=
  match e.threads k with
  | none => { e.put k (some { number := e.calls, task }) e.wakes [] with calls := e.calls + 1 }
  | some _ => e

def tookNews (number : Nat) (timeoutMs : Int32) : Take.Turn → List Happening
  | .goto _ => []
  | .done outcome => [.took number timeoutMs outcome]

def advanceTake (e : Ensemble) (k : NotificationId) (number i : Nat) (timeoutMs : Int32)
    (next : (Semaphore × Wakes) × Take.Turn) : Ensemble :=
  { e.put k ((Take.place next.2).map fun p => { number, task := .take i timeoutMs p }) next.1.2
      (tookNews number timeoutMs next.2) with
    semaphores := Function.update e.semaphores i next.1.1 }

def advanceSleep (e : Ensemble) (k : NotificationId) (number : Nat) (client : ClockClient) (ms : Tick)
    (next : Wakes × Next Sleep.Point (Except Error Tick)) : Ensemble :=
  match next.2 with
  | .goto p => e.put k (some { number, task := .sleep client ms p }) next.1 []
  | .done outcome => e.put k none next.1 [.slept number outcome]

/-- A step of a thread inside a take, which reads a reply where it awaits one. -/
def stepTake (e : Ensemble) (k : NotificationId) (call : BlockingCall) (i : Nat) (timeoutMs : Int32)
    (p : Take.Point) : Ensemble :=
  let t : Take := { timeoutMs, wait := k }
  if p.isInside then
    match call.reply with
    | none => e
    | some reply => e.advanceTake k call.number i timeoutMs
        (t.answered (e.semaphores i) e.wakes (.ok reply.toMessage) p)
  else
    match t.step (e.semaphores i, e.wakes) p with
    | none => e
    | some next => e.advanceTake k call.number i timeoutMs next

def stepSleep (e : Ensemble) (k : NotificationId) (call : BlockingCall) (client : ClockClient) (ms : Tick)
    (p : Sleep.Point) : Ensemble :=
  match p with
  | .scheduling =>
    match call.reply with
    | none => e
    | some reply =>
      e.advanceSleep k call.number client ms (e.wakes, Sleep.answered (.ok reply.toMessage))
  | .sleeping id =>
    match ({ client, ms, wait := k } : Sleep).step e.wakes (.sleeping id) with
    | none => e
    | some next => e.advanceSleep k call.number client ms next

/-- The request that a thread has with the clock, and the badge that it comes under. -/
def request? (e : Ensemble) (k : NotificationId) (call : BlockingCall) : Option (Badge × ClockRequest) :=
  match call.task with
  | .take i timeoutMs p =>
    match (e.semaphores i).clock, ({ timeoutMs, wait := k } : Take).request? p with
    | some client, some request => some (client.badge, request)
    | _, _ => none
  | .sleep client ms p =>
    (({ client, ms, wait := k } : Sleep).request? p).map fun request => (client.badge, request)

def replyNews (number : Nat) : Reply → List Happening
  | .scheduled id _ => [.scheduled number id]
  | _ => []

/-- Handle the request of a call, unless a fire holds the schedule. -/
def serve (e : Ensemble) (k : NotificationId) (call : BlockingCall) : Ensemble :=
  match e.request? k call, call.reply, e.outgoing with
  | some (badge, request), none, [] =>
    let (reply, clock) := e.clock.handle badge request
    { e.put k (some { call with reply := some reply }) e.wakes (replyNews call.number reply) with
      clock }
  | _, _, _ => e

def handle (e : Ensemble) : EnsembleEvent → Ensemble
  | .take k i timeoutMs => e.begin k (.take i timeoutMs .entering)
  | .sleep k client ms => e.begin k (.sleep client ms .scheduling)
  | .give i =>
    match (e.semaphores i).give e.wakes with
    | none => e
    | some (s, wakes) => { e with semaphores := Function.update e.semaphores i s, wakes }
  | .step k =>
    match e.threads k with
    | none => e
    | some call =>
      match call.task with
      | .take i timeoutMs p => e.stepTake k call i timeoutMs p
      | .sleep client ms p => e.stepSleep k call client ms p
  | .serve k =>
    match e.threads k with
    | none => e
    | some call => e.serve k call
  | .tick period =>
    match e.outgoing with
    | [] =>
      let clock := e.clock.advance period
      { e with
        clock := (clock.fireDue e.wakes).1, outgoing := clock.schedule.deliveries clock.tick }
    | _ :: _ => e
  | .deliver =>
    match e.outgoing with
    | [] => e
    | (id, k) :: outgoing =>
      { e with
        wakes := (e.wakes.signal k (.timeout e.clock.tick)).2, outgoing
        history := .fired id e.clock.tick :: e.history }

def run (e : Ensemble) (events : List EnsembleEvent) : Ensemble := events.foldl handle e

def granted (history : List Happening) : Nat :=
  history.countP fun
    | .scheduled .. => true
    | _ => false

@[simp] theorem run_append (e : Ensemble) (before after : List EnsembleEvent) :
    e.run (before ++ after) = (e.run before).run after :=
  List.foldl_append

/-! ## A fire that nobody interrupts -/

theorem fireDue_spec (clock : ClockState) {n : Nat} (h : clock.schedule.Lockstep n) (wakes : Wakes) :
    ∃ s', clock.fireDue wakes = ({ clock with schedule := s' },
        clock.schedule.caps.signalEach clock.tick (clock.schedule.due clock.tick) wakes) ∧
      s'.Lockstep n ∧
      s'.pending = clock.schedule.pending.filterMap (TimeoutEntry.afterFire clock.tick) ∧
      ∀ x ∈ s'.pending, s'.wakeOf x.id = clock.schedule.wakeOf x.id := by
  obtain ⟨s', hfire, hlock, -, hpending, hwake⟩ := Schedule.fire_spec h wakes clock.tick
  exact ⟨s', by rw [ClockState.fireDue, hfire], hlock, hpending, hwake⟩

theorem run_replicate_deliver (e : Ensemble) :
    (e.run (List.replicate e.outgoing.length .deliver)).wakes =
      e.outgoing.foldl (fun wakes d => (wakes.signal d.2 (.timeout e.clock.tick)).2) e.wakes := by
  generalize houtgoing : e.outgoing = outgoing
  induction outgoing generalizing e with
  | nil => rfl
  | cons d outgoing ih =>
    have hnext := ih (e.handle .deliver) (by simp only [handle, houtgoing])
    rw [List.length_cons, List.replicate_succ, run, List.foldl_cons, List.foldl_cons, ← run, hnext]
    simp only [handle, houtgoing]

/-- A tick and the deliveries after it are an advance and a fire of the clock. -/
theorem run_deliver {e : Ensemble} {n : Nat} (h : e.clock.schedule.Lockstep n)
    (hidle : e.outgoing = []) (period : Tick) :
    let ticked := e.handle (.tick period)
    let fired := (e.clock.advance period).fireDue e.wakes
    ticked.clock = fired.1 ∧
      (ticked.run (List.replicate ticked.outgoing.length .deliver)).wakes = fired.2 := by
  intro ticked fired
  have hticked : ticked = { e with
      clock := fired.1
      outgoing := (e.clock.advance period).schedule.deliveries (e.clock.advance period).tick } := by
    simp only [ticked, handle, hidle, fired]
  obtain ⟨s', hfired, -⟩ := fireDue_spec (e.clock.advance period) h e.wakes
  have hfired : fired = _ := hfired
  refine ⟨by rw [hticked], ?_⟩
  rw [run_replicate_deliver, hticked, hfired, Schedule.signalEach_due]

end Ensemble

end Osal
