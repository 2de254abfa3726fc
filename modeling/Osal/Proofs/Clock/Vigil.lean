import Osal.Clock.Service
import Osal.Proofs.Clock.Client
import Osal.Proofs.Clock.Lockstep
import Osal.Proofs.Wakes

/-!
# A thread that waits for timeouts

A vigil is a thread that waits for timeouts on a notification of its own, the bell, and the clock that
fires them. Others may release the thread through the bell and have requests of their own with the
clock, and anything can happen between two steps of the thread. A fire holds the schedule and sends
its signals one by one (`Schedule.signalEach_due`: together they are the fire of the clock).

The history tells what reached the bell and what the thread made of it, the latest first. It says all
about the bell (`Heeds`): `unheard` reads the wake off it that is pending, and a wake that was heard, or
that a timeout found in the bell, was the one pending then (`Traced`).
-/

namespace Osal

/-- A call that waits for a timeout, and the reply of the clock that its thread has not read yet. -/
structure WaitCall where
  id : TimeoutId
  cancel : Bool
  point : TimeoutWait.Point := .listening
  reply : Option Reply := none

/-- What the history of a vigil tells. -/
inductive VigilNews where
  /-- The clock granted a timeout. -/
  | granted (id : TimeoutId)
  /-- A timeout signalled the bell, which held a wake or none. -/
  | fired (id : TimeoutId) (tick : Tick) (found : Option Wakeup)
  | released
  | heard (wake : Wakeup)
  /-- The clock handled the cancellation of a timeout by the thread. -/
  | answered (id : TimeoutId)
  | returned (id : TimeoutId) (cancel : Bool) (result : Except Error Tick)

structure Vigil where
  bell : NotificationId
  client : ClockClient
  clock : ClockState
  wakes : Wakes
  /-- The call that the thread is inside of. -/
  call : Option WaitCall := none
  /-- The signals that a fire at the current tick has still to send. -/
  outgoing : List (TimeoutId × NotificationId) := []
  history : List VigilNews := []

/-- What can happen to a vigil. An event that is impossible at its moment changes nothing. -/
inductive VigilEvent where
  | listen (id : TimeoutId) (cancel : Bool)
  /-- The thread takes a step, unless it is blocked. -/
  | step
  /-- The clock handles the cancellation of the thread. -/
  | serve
  /-- The clock handles any other request. -/
  | request (badge : Badge) (request : ClockRequest)
  /-- Somebody else signals the bell. -/
  | release
  /-- The clock advances and starts to fire. -/
  | tick (period : Tick)
  /-- The fire sends its next signal. -/
  | deliver

namespace Vigil

/-- The thread waits from the start, and nothing has reached the bell. -/
def start (threads : Nat) (bell : NotificationId) (client : ClockClient) (clock : ClockState)
    (id : TimeoutId) (cancel : Bool) : Vigil :=
  { bell, client, clock, wakes := .ofCount threads, call := some { id, cancel } }

def waitOf (v : Vigil) (call : WaitCall) : TimeoutWait :=
  { id := call.id, wait := v.bell, cancel := call.cancel }

def advance (v : Vigil) (call : WaitCall) (news : List VigilNews)
    (next : Wakes × Next TimeoutWait.Point (Except Error Tick)) : Vigil :=
  match next.2 with
  | .goto point =>
    { v with wakes := next.1, call := some { call with point }, history := news ++ v.history }
  | .done result =>
    { v with
      wakes := next.1, call := none
      history := .returned call.id call.cancel result :: news ++ v.history }

/-- A step of the thread, which reads a reply where it awaits one. -/
def step (v : Vigil) (call : WaitCall) : Vigil :=
  match call.point with
  | .listening =>
    match (v.waitOf call).step v.wakes .listening with
    | none => v
    | some next => v.advance call ((v.wakes.pending? v.bell).map VigilNews.heard).toList next
  | .cancelling tick =>
    match call.reply with
    | none => v
    | some reply =>
      v.advance call [] (v.wakes, .done ((v.waitOf call).answered tick (.ok reply.toMessage)))

/-- Handle the cancellation of a call, unless a fire holds the schedule. -/
def serve (v : Vigil) (call : WaitCall) : Vigil :=
  match (v.waitOf call).request? call.point, call.reply, v.outgoing with
  | some request, none, [] =>
    let (reply, clock) := v.clock.handle v.client.badge request
    { v with
      clock, call := some { call with reply := some reply }
      history := .answered call.id :: v.history }
  | _, _, _ => v

def grantNews : Reply → List VigilNews
  | .scheduled id _ => [.granted id]
  | _ => []

def handle (v : Vigil) : VigilEvent → Vigil
  | .listen id cancel =>
    match v.call with
    | none => { v with call := some { id, cancel } }
    | some _ => v
  | .step =>
    match v.call with
    | none => v
    | some call => v.step call
  | .serve =>
    match v.call with
    | none => v
    | some call => v.serve call
  | .request badge request =>
    match v.outgoing with
    | [] =>
      let (reply, clock) := v.clock.handle badge request
      { v with clock, history := grantNews reply ++ v.history }
    | _ :: _ => v
  | .release =>
    { v with
      wakes := (v.wakes.signal v.bell .released).2, history := .released :: v.history }
  | .tick period =>
    match v.outgoing with
    | [] =>
      let clock := v.clock.advance period
      { v with
        clock := (clock.fireDue v.wakes).1, outgoing := clock.schedule.deliveries clock.tick }
    | _ :: _ => v
  | .deliver =>
    match v.outgoing with
    | [] => v
    | (id, k) :: outgoing =>
      { v with
        wakes := (v.wakes.signal k (.timeout v.clock.tick)).2, outgoing
        history := if k = v.bell then
            .fired id v.clock.tick (v.wakes.pending? v.bell) :: v.history
          else v.history }

def run (v : Vigil) (events : List VigilEvent) : Vigil := events.foldl handle v

def granted (history : List VigilNews) : Nat :=
  history.countP fun
    | .granted _ => true
    | _ => false

/-! ## What an event does -/

variable {v v' : Vigil}

/-- What one event does to a vigil. -/
inductive Moved (v : Vigil) : Vigil → Prop where
  | idle : Moved v v
  | listen (id : TimeoutId) (cancel : Bool) (hcall : v.call = none) :
    Moved v { v with call := some { id, cancel } }
  /-- The thread hears a release, and listens again. -/
  | skip (call : WaitCall) (hcall : v.call = some call) (hpoint : call.point = .listening)
    (hwake : v.wakes.pending? v.bell = some .released) :
    Moved v { v with
      wakes := (v.wakes.poll v.bell).2, history := .heard .released :: v.history }
  /-- The thread hears a timeout, and is to cancel its own. -/
  | hear (call : WaitCall) (tick : Tick) (hcall : v.call = some call)
    (hpoint : call.point = .listening) (hwake : v.wakes.pending? v.bell = some (.timeout tick))
    (hcancel : call.cancel = true) :
    Moved v { v with
      wakes := (v.wakes.poll v.bell).2, call := some { call with point := .cancelling tick }
      history := .heard (.timeout tick) :: v.history }
  /-- The thread hears a timeout, and returns. -/
  | finish (call : WaitCall) (tick : Tick) (hcall : v.call = some call)
    (hpoint : call.point = .listening) (hwake : v.wakes.pending? v.bell = some (.timeout tick))
    (hcancel : call.cancel = false) :
    Moved v { v with
      wakes := (v.wakes.poll v.bell).2, call := none
      history := .returned call.id false (.ok tick) :: .heard (.timeout tick) :: v.history }
  | answer (call : WaitCall) (tick : Tick) (reply : Reply) (clock : ClockState)
    (hcall : v.call = some call) (hpoint : call.point = .cancelling tick)
    (hreply : call.reply = none) (hidle : v.outgoing = [])
    (hhandle : v.clock.handle v.client.badge (.cancelTimeout call.id) = (reply, clock)) :
    Moved v { v with
      clock, call := some { call with reply := some reply }
      history := .answered call.id :: v.history }
  /-- The thread reads the reply to its cancellation, and returns. -/
  | close (call : WaitCall) (tick : Tick) (reply : Reply) (hcall : v.call = some call)
    (hpoint : call.point = .cancelling tick) (hreply : call.reply = some reply) :
    Moved v { v with
      call := none
      history := .returned call.id call.cancel
        ((v.waitOf call).answered tick (.ok reply.toMessage)) :: v.history }
  | request (badge : Badge) (request : ClockRequest) (reply : Reply) (clock : ClockState)
    (hidle : v.outgoing = []) (hhandle : v.clock.handle badge request = (reply, clock)) :
    Moved v { v with clock, history := grantNews reply ++ v.history }
  | release :
    Moved v { v with
      wakes := (v.wakes.signal v.bell .released).2, history := .released :: v.history }
  | tick (period : Tick) (hidle : v.outgoing = []) :
    Moved v { v with
      clock := ((v.clock.advance period).fireDue v.wakes).1
      outgoing := v.clock.schedule.deliveries (v.clock.tick + period) }
  /-- A timeout signals the bell. -/
  | ring (id : TimeoutId) (outgoing : List (TimeoutId × NotificationId))
    (hout : v.outgoing = (id, v.bell) :: outgoing) :
    Moved v { v with
      wakes := (v.wakes.signal v.bell (.timeout v.clock.tick)).2, outgoing
      history := .fired id v.clock.tick (v.wakes.pending? v.bell) :: v.history }
  /-- A timeout signals another notification. -/
  | elsewhere (id : TimeoutId) (k : NotificationId)
    (outgoing : List (TimeoutId × NotificationId)) (hk : k ≠ v.bell)
    (hout : v.outgoing = (id, k) :: outgoing) :
    Moved v { v with wakes := (v.wakes.signal k (.timeout v.clock.tick)).2, outgoing }

theorem step_listening (w : TimeoutWait) (wakes : Wakes) :
    w.step wakes .listening = (wakes.pending? w.wait).map fun
      | .released => ((wakes.poll w.wait).2, .goto .listening)
      | .timeout tick => ((wakes.poll w.wait).2,
          if w.cancel then .goto (.cancelling tick) else .done (.ok tick)) := by
  rw [← Wakes.poll_fst]
  simp only [TimeoutWait.step]
  generalize wakes.poll w.wait = polled
  obtain ⟨_ | _ | tick, wakes'⟩ := polled <;> rfl

theorem moved_step {call : WaitCall} (hcall : v.call = some call) : v.Moved (v.step call) := by
  obtain ⟨id, cancel, point, reply⟩ := call
  cases point with
  | listening =>
    simp only [step, step_listening, waitOf]
    cases hwake : v.wakes.pending? v.bell with
    | none => exact .idle
    | some wake =>
      cases wake with
      | released =>
        have hskip := Moved.skip _ hcall rfl hwake
        rwa [hcall] at hskip
      | timeout tick =>
        cases cancel with
        | true => exact .hear _ tick hcall rfl hwake rfl
        | false => exact .finish _ tick hcall rfl hwake rfl
  | cancelling tick =>
    cases reply with
    | none => exact .idle
    | some reply => exact .close _ tick reply hcall rfl rfl

theorem moved_serve {call : WaitCall} (hcall : v.call = some call) : v.Moved (v.serve call) := by
  obtain ⟨id, cancel, point, reply⟩ := call
  unfold serve
  split
  · rename_i request hrequest hreply hidle
    cases point with
    | listening => cases hrequest
    | cancelling tick =>
      obtain rfl := Option.some.inj hrequest
      generalize hhandle : v.clock.handle v.client.badge _ = answer
      obtain ⟨answer, clock⟩ := answer
      exact .answer _ tick answer clock hcall rfl hreply hidle hhandle
  · exact .idle

theorem moved_handle (v : Vigil) (event : VigilEvent) : v.Moved (v.handle event) := by
  cases event with
  | listen id cancel =>
    cases hcall : v.call with
    | none =>
      simp only [handle, hcall]
      exact .listen id cancel hcall
    | some call =>
      simp only [handle, hcall]
      exact .idle
  | step =>
    cases hcall : v.call with
    | none =>
      simp only [handle, hcall]
      exact .idle
    | some call =>
      simp only [handle, hcall]
      exact moved_step hcall
  | serve =>
    cases hcall : v.call with
    | none =>
      simp only [handle, hcall]
      exact .idle
    | some call =>
      simp only [handle, hcall]
      exact moved_serve hcall
  | request badge request =>
    cases hout : v.outgoing with
    | nil =>
      simp only [handle, hout]
      generalize hhandle : v.clock.handle badge request = answer
      obtain ⟨reply, clock⟩ := answer
      exact hout ▸ .request badge request reply clock hout hhandle
    | cons d outgoing =>
      simp only [handle, hout]
      exact .idle
  | release => exact .release
  | tick period =>
    cases hout : v.outgoing with
    | nil =>
      simp only [handle, hout]
      exact .tick period hout
    | cons d outgoing =>
      simp only [handle, hout]
      exact .idle
  | deliver =>
    cases hout : v.outgoing with
    | nil =>
      simp only [handle, hout]
      exact .idle
    | cons d outgoing =>
      obtain ⟨id, k⟩ := d
      simp only [handle, hout]
      by_cases hk : k = v.bell
      · subst hk
        simp only [if_true]
        exact .ring id outgoing hout
      · simp only [if_neg hk]
        exact .elsewhere id k outgoing hk hout

theorem Moved.suffix (h : v.Moved v') : v.history <:+ v'.history := by
  cases h with
  | idle | listen | tick | elsewhere => exact List.suffix_rfl
  | skip | hear | answer | close | release | ring => exact List.suffix_cons ..
  | finish => exact (List.suffix_cons ..).trans (List.suffix_cons ..)
  | request => exact List.suffix_append ..

theorem run_induction {p : Vigil → Prop} (hp : ∀ v v', p v → v.Moved v' → p v') (h : p v)
    (events : List VigilEvent) : p (v.run events) := by
  induction events generalizing v with
  | nil => exact h
  | cons event events ih => exact ih (hp v _ h (moved_handle v event))

theorem suffix_run (v : Vigil) (events : List VigilEvent) :
    v.history <:+ (v.run events).history :=
  run_induction (p := fun v' => v.history <:+ v'.history)
    (fun _ _ h hmoved => h.trans hmoved.suffix) List.suffix_rfl events

/-! ## What the history says of the bell -/

/-- The wake that is in the bell after a history: the first that reached it since it was empty. -/
def unheard : List VigilNews → Option Wakeup
  | [] => none
  | .heard _ :: _ => none
  | .released :: older => some ((unheard older).getD .released)
  | .fired _ tick _ :: older => some ((unheard older).getD (.timeout tick))
  | .granted _ :: older | .answered _ :: older | .returned .. :: older => unheard older

/-- Each wake that was heard, or that a timeout found in the bell, was the one in there. -/
def Traced : List VigilNews → Prop
  | [] => True
  | .heard wake :: older => unheard older = some wake ∧ Traced older
  | .fired _ _ found :: older => unheard older = found ∧ Traced older
  | .released :: older | .granted _ :: older | .answered _ :: older | .returned .. :: older =>
    Traced older

/-- The history accounts for the wake that is pending in the bell. -/
structure Heeds (v : Vigil) : Prop where
  live : v.wakes.IsLive v.bell
  pending : v.wakes.pending? v.bell = unheard v.history
  traced : Traced v.history

@[simp] theorem unheard_heard (wake : Wakeup) (older : List VigilNews) :
    unheard (.heard wake :: older) = none := rfl

@[simp] theorem unheard_released (older : List VigilNews) :
    unheard (.released :: older) = some ((unheard older).getD .released) := rfl

@[simp] theorem unheard_fired (id : TimeoutId) (tick : Tick) (found : Option Wakeup)
    (older : List VigilNews) :
    unheard (.fired id tick found :: older) = some ((unheard older).getD (.timeout tick)) := rfl

@[simp] theorem unheard_returned (id : TimeoutId) (cancel : Bool) (result : Except Error Tick)
    (older : List VigilNews) : unheard (.returned id cancel result :: older) = unheard older := rfl

@[simp] theorem unheard_grantNews (reply : Reply) (older : List VigilNews) :
    unheard (grantNews reply ++ older) = unheard older := by
  cases reply <;> rfl

theorem traced_grantNews (reply : Reply) {older : List VigilNews} (h : Traced older) :
    Traced (grantNews reply ++ older) := by
  cases reply <;> exact h

theorem heeds_start {threads : Nat} {bell : NotificationId} (hbell : bell < threads)
    (client : ClockClient) (clock : ClockState) (id : TimeoutId) (cancel : Bool) :
    (start threads bell client clock id cancel).Heeds :=
  { live := Wakes.isLive_ofCount hbell
    pending := Wakes.pending?_ofCount threads
    traced := trivial }

theorem Heeds.moved (h : v.Heeds) (hmoved : v.Moved v') : v'.Heeds := by
  obtain ⟨hlive, hpending, htraced⟩ := h
  cases hmoved with
  | idle | listen | answer | close | tick => exact ⟨hlive, hpending, htraced⟩
  | skip call hcall hpoint hwake =>
    exact ⟨by simpa using hlive, by simp, hpending ▸ hwake, htraced⟩
  | hear call tick hcall hpoint hwake hcancel =>
    exact ⟨by simpa using hlive, by simp, hpending ▸ hwake, htraced⟩
  | finish call tick hcall hpoint hwake hcancel =>
    exact ⟨by simpa using hlive, by simp, hpending ▸ hwake, htraced⟩
  | request badge request reply clock hidle hhandle =>
    exact ⟨hlive, by simpa using hpending, traced_grantNews reply htraced⟩
  | release => exact ⟨by simpa using hlive, by simp [hlive, hpending], htraced⟩
  | ring id outgoing hout =>
    exact ⟨by simpa using hlive, by simp [hlive, hpending], hpending.symm, htraced⟩
  | elsewhere id k outgoing hk hout =>
    exact ⟨by simpa using hlive, by simp [hk.symm, hpending], htraced⟩

theorem Heeds.run (h : v.Heeds) (events : List VigilEvent) : (v.run events).Heeds :=
  run_induction (fun _ _ h hmoved => h.moved hmoved) h events

end Vigil

end Osal
