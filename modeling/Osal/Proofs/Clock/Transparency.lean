import Osal.Proofs.Clock.Consistency
import Osal.Proofs.Clock.Lockstep

/-!
# The wire and the server loop are transparent

What a client reads in the answer to an operation is what the operation itself gives on the state of
the clock at that moment. A message that is no request is refused, and nothing else happens
(`ClockState.Transparent`).

`wire_transparent`: this holds in every state that a running clock reaches as long as names last, and
the server loop answers each call once, whatever the others do meanwhile.
-/

namespace Osal

/-! ## Operations over the wire -/

namespace ClockState

variable {s : ClockState} {n : Nat}

def respond (s : ClockState) (badge : Badge) (m : ClockMessage) : ClockMessage × ClockState :=
  ((s.serve badge m).1.toMessage, (s.serve badge m).2)

/-- An operation over the wire is the operation itself, and what is no request is refused. -/
structure Transparent (s : ClockState) : Prop where
  refused : ∀ badge m fault, Request.decode m = .error fault →
    s.respond badge m = ({ label := 2, words := [] }, s)
  getTime : ∀ badge, let answer := s.respond badge (Request.toMessage .getTime)
    ClockClient.timeOf (.ok answer.1) = .ok s.tick ∧ answer.2 = s
  /-- A timeout is granted at the current tick, to the badge of the client. -/
  schedule : ∀ badge periodic period wake, ¬ (periodic = true ∧ period = 0) →
    let answer := s.respond badge (Request.toMessage (.setTimeout periodic period wake))
    let direct := s.schedule.insert s.tick badge periodic period wake
    ClockClient.scheduledOf (.ok answer.1) = direct.1.map (fun id => ⟨id, s.tick⟩) ∧
      answer.2 = { s with schedule := direct.2 }
  full_iff : ∀ badge periodic period wake, ¬ (periodic = true ∧ period = 0) →
    (ClockClient.scheduledOf (.ok
        (s.respond badge (Request.toMessage (.setTimeout periodic period wake))).1) =
      .error .schedulerFull ↔ s.schedule.size = s.schedule.capacity)
  zero_period : ∀ badge wake,
    let answer := s.respond badge (Request.toMessage (.setTimeout true 0 wake))
    ClockClient.scheduledOf (.ok answer.1) =
      .error (.protocol "unexpected sysclock reply Failed(BadRequest)") ∧ answer.2 = s
  cancel : ∀ badge id, let answer := s.respond badge (Request.toMessage (.cancelTimeout id))
    ClockClient.cancelledOf id (.ok answer.1) = (s.schedule.cancel id).1 ∧
      answer.2 = { s with schedule := (s.schedule.cancel id).2 }
  cancel_pending : ∀ id, (s.schedule.cancel id).1 =
    if ∃ e ∈ s.schedule.pending, e.id = id then .ok () else .error (.timeoutNotFound id)
  /-- Nothing else that a client asks for is refused. -/
  refused_iff : ∀ badge (request : ClockRequest),
    (s.respond badge request.toMessage).1 = { label := 2, words := [] } ↔ request.IsRefused

theorem respond_of_error {m : ClockMessage} {fault : ProtocolFault}
    (h : Request.decode m = .error fault) (s : ClockState) (badge : Badge) :
    s.respond badge m = ({ label := 2, words := [] }, s) := by
  rw [respond, serve, Request.ofMessage, h]
  rfl

theorem respond_toMessage {request : ClockRequest} (h : ¬ request.IsRefused) (s : ClockState)
    (badge : Badge) :
    s.respond badge request.toMessage =
      ((s.handle badge request).1.toMessage, (s.handle badge request).2) := by
  rw [respond, serve, Request.ofMessage, Request.decode_toMessage h]

theorem label_handle (s : ClockState) (badge : Badge) (request : ClockRequest) :
    ((s.handle badge request).1.toMessage : ClockMessage).label ≠ 2 := by
  cases request with
  | getTime => exact (by decide : (0 : Word) ≠ 2)
  | setTimeout periodic period wake =>
    simp only [handle]
    split
    · exact (by decide : (0 : Word) ≠ 2)
    · exact (by decide : (1 : Word) ≠ 2)
  | cancelTimeout id =>
    rcases s.reply_cancel badge id with h | h <;> rw [h]
    · exact (by decide : (0 : Word) ≠ 2)
    · exact (by decide : (1 : Word) ≠ 2)

theorem respond_refused_iff (s : ClockState) (badge : Badge) (request : ClockRequest) :
    (s.respond badge request.toMessage).1 = { label := 2, words := [] } ↔ request.IsRefused := by
  constructor
  · intro h
    by_contra hrefused
    rw [respond_toMessage hrefused] at h
    exact s.label_handle badge request (congrArg Message.label h)
  · intro h
    rw [respond_of_error (Request.decode_of_isRefused h)]

theorem respond_setTimeout (h : s.schedule.Lockstep n) (badge : Badge) {periodic : Bool}
    {period : Tick} (hperiod : ¬ (periodic = true ∧ period = 0)) (wake : NotificationId) :
    let answer := s.respond badge (Request.toMessage (.setTimeout periodic period wake))
    let direct := s.schedule.insert s.tick badge periodic period wake
    ClockClient.scheduledOf (.ok answer.1) = direct.1.map (fun id => ⟨id, s.tick⟩) ∧
      answer.2 = { s with schedule := direct.2 } := by
  rw [respond_toMessage (show ¬ (Request.setTimeout periodic period wake).IsRefused from hperiod)]
  simp only [handle]
  rcases Nat.lt_or_eq_of_le h.size_le with hroom | hfull
  · obtain ⟨id, schedule, hinsert⟩ :=
      Schedule.insert_isOk_of_lt h hroom s.tick badge periodic period wake
    rw [hinsert]
    exact ⟨ClockClient.scheduledOf_scheduled id s.tick, rfl⟩
  · rw [Schedule.insert_of_full h hfull]
    exact ⟨ClockClient.scheduledOf_failed, rfl⟩

theorem respond_cancelTimeout (h : s.schedule.Lockstep n) (badge : Badge) (id : TimeoutId) :
    let answer := s.respond badge (Request.toMessage (.cancelTimeout id))
    ClockClient.cancelledOf id (.ok answer.1) = (s.schedule.cancel id).1 ∧
      answer.2 = { s with schedule := (s.schedule.cancel id).2 } := by
  rw [respond_toMessage (show ¬ (Request.cancelTimeout id : ClockRequest).IsRefused from not_false)]
  simp only [handle]
  by_cases hid : ∃ e ∈ s.schedule.pending, e.id = id
  · obtain ⟨schedule, hcancel, -⟩ := Schedule.cancel_of_mem h hid
    rw [hcancel]
    exact ⟨ClockClient.cancelledOf_cancelled id, rfl⟩
  · rw [Schedule.cancel_of_notMem h fun e he heq => hid ⟨e, he, heq⟩]
    exact ⟨ClockClient.cancelledOf_failed id, rfl⟩

theorem transparent_of_lockstep (h : s.schedule.Lockstep n) : s.Transparent := by
  have hagree := h.tablesAgree
  refine
    { refused := fun badge m fault hm => respond_of_error hm s badge
      getTime := fun badge => ?_
      schedule := fun badge periodic period wake hperiod => respond_setTimeout h badge hperiod wake
      full_iff := fun badge periodic period wake hperiod => ?_
      zero_period := fun badge wake => ?_
      cancel := respond_cancelTimeout h
      cancel_pending := fun id => ?_
      refused_iff := s.respond_refused_iff }
  · rw [respond_toMessage (show ¬ (Request.getTime : ClockRequest).IsRefused from not_false)]
    exact ⟨ClockClient.timeOf_time s.tick, rfl⟩
  · rw [(respond_setTimeout h badge hperiod wake).1,
      ← hagree.insert_full_iff s.tick badge periodic period wake]
    cases (s.schedule.insert s.tick badge periodic period wake).1 with
    | ok => exact ⟨nofun, nofun⟩
    | error e => exact ⟨fun heq => congrArg _ (Except.error.inj heq), fun heq =>
        congrArg _ (Except.error.inj heq)⟩
  · have hrefused : (Request.setTimeout true 0 wake).IsRefused := ⟨rfl, rfl⟩
    rw [respond_of_error (Request.decode_of_isRefused hrefused)]
    exact ⟨ClockClient.scheduledOf_badRequest, rfl⟩
  · split
    · exact hagree.cancel_present id ‹_›
    · rename_i hid
      exact (hagree.cancel_absent_iff id).2 fun e he heq => hid ⟨e, he, heq⟩

end ClockState

namespace RunningClock

variable {period : Tick} {c c' c'' : RunningClock} {clock clock' : SysClock} {n : Nat}
  {event : Event}

/-! ## Names last -/

/-- The tables of the schedule are in lockstep as long as names last. -/
def InLockstep (c : RunningClock) : Prop :=
  (tally c.history).grants.length ≤ Schedule.maxGranted →
    c.clock.state.schedule.Lockstep (tally c.history).grants.length

theorem InLockstep.of_same (h : c.InLockstep)
    (hschedule : c'.clock.state.schedule = c.clock.state.schedule)
    (hgrants : (tally c'.history).grants = (tally c.history).grants) : c'.InLockstep := by
  rw [InLockstep, hschedule, hgrants]
  exact h

theorem grants_raiserNews (raiser : Nat) (p : ManualTimer.FirePoint)
    (next : Next ManualTimer.FirePoint (Except PlatformError Unit)) (past : List Deed) :
    (tally (raiserNews raiser p next :: past)).grants = (tally past).grants := by
  unfold raiserNews
  split <;> rfl

theorem lockstep_serve {s : ClockState} (h : s.schedule.Lockstep n) (badge : Badge)
    (m : ClockMessage) :
    (grantedBy (s.serve badge m).2.schedule (s.serve badge m).1 = none ∧
      (s.serve badge m).2.schedule.Lockstep n) ∨
    ∃ entry, grantedBy (s.serve badge m).2.schedule (s.serve badge m).1 = some entry ∧
      (n < Schedule.maxGranted → (s.serve badge m).2.schedule.Lockstep (n + 1)) := by
  obtain ⟨free, alloc, hpool⟩ := h.pool
  have hserved := (ClockState.served hpool badge m).cases
  cases hm : Request.decode m with
  | error fault =>
    rw [hm] at hserved
    rw [hserved]
    exact Or.inl ⟨rfl, h⟩
  | ok request =>
    have hserve : s.serve badge m = s.handle badge request := by
      rw [ClockState.serve, Request.ofMessage, hm]
    rw [hm] at hserved
    rw [hserve] at hserved ⊢
    rcases s.handle_cases h badge request with
      ⟨reply, hhandle, hreply, -⟩ | ⟨id, schedule, hhandle, -, hlock, -⟩ |
        ⟨id, periodic, ms, wake, schedule, hhandle, rfl, hlock⟩
    · rw [hhandle]
      refine Or.inl ⟨?_, h⟩
      cases reply with
      | scheduled id tick => exact (hreply id tick rfl).elim
      | time | cancelled | failed => rfl
    · rw [hhandle]
      exact Or.inl ⟨rfl, hlock⟩
    · rw [hhandle] at hserved ⊢
      rcases hserved with ⟨hfailed, -⟩ | ⟨_, slot, -, htoList⟩
      · cases hfailed
      · exact Or.inr ⟨_, (congrArg List.getLast? htoList).trans List.getLast?_concat,
          fun hn => (hlock hn).1⟩

namespace InLockstep

theorem timer {wakes' : Wakes} (h : c.InLockstep)
    (hstep : c.clock.TimerSteps c.wakes clock' wakes') :
    InLockstep { c with
      clock := clock', wakes := wakes', history := c.timerNews clock' ++ c.history } := by
  cases hstep with
  | interrupt hphase | stop hphase | store hphase | acknowledge hphase | fail hphase =>
    simp only [timerNews, hphase]
    exact h.of_same rfl rfl
  | fire hphase =>
    simp only [timerNews, hphase]
    intro hn
    obtain ⟨schedule, hfire, hlock, -⟩ := Schedule.fire_spec (h hn) c.wakes c.clock.state.tick
    simp only [ClockState.fireDue, hfire]
    exact hlock

theorem server (h : c.InLockstep) (hstep : c.clock.ServerSteps clock') :
    (c.serve clock').InLockstep := by
  cases hstep with
  | receive hphase | close hphase | skip hphase | reply hphase =>
    simp only [RunningClock.serve, hphase]
    exact h.of_same rfl rfl
  | @handle k call hphase hcall =>
    have hcases := fun hn => lockstep_serve (h hn) call.badge call.message
    simp only [RunningClock.serve, hphase, hcall]
    generalize c.clock.state.serve call.badge call.message = next at hcases ⊢
    cases hgranted : grantedBy next.2.schedule next.1 with
    | none =>
      have hsame : (tally (.handled call next.1 none :: c.history)).grants =
          (tally c.history).grants := List.append_nil _
      intro hn
      simp only [Option.map_none, hsame] at hn ⊢
      rcases hcases hn with ⟨-, hlock⟩ | ⟨entry, hsome, -⟩
      · exact hlock
      · cases hgranted.symm.trans hsome
    | some entry =>
      have hmore : (tally (.handled call next.1 (some entry.2) :: c.history)).grants.length =
          (tally c.history).grants.length + 1 := List.length_append
      intro hn
      simp only [Option.map_some, hmore] at hn ⊢
      rcases hcases (Nat.le_of_lt hn) with ⟨hnone, -⟩ | ⟨other, -, hlock⟩
      · cases hgranted.symm.trans hnone
      · exact hlock hn

theorem handle (h : c.InLockstep) (event : Event) : (c.handle event).InLockstep := by
  cases event with
  | start =>
    simp only [RunningClock.handle, SysClock.start]
    split
    · rename_i hstart
      split at hstart
      · cases hstart
      · cases hstart
        exact h
    · exact h
  | timer =>
    simp only [RunningClock.handle]
    split
    · exact h.timer (SysClock.timerSteps_of_step ‹_›)
    · exact h
  | server =>
    simp only [RunningClock.handle]
    split
    · exact h.server (SysClock.serverSteps_of_step ‹_›)
    · exact h
  | collect | fire =>
    simp only [RunningClock.handle]
    split
    · exact h.of_same rfl rfl
    · exact h
  | raise =>
    simp only [RunningClock.handle]
    split
    · split
      · exact h.of_same rfl (grants_raiserNews ..)
      · exact h
    · exact h
  | send | dropHandle | leave => exact h.of_same rfl rfl

theorem run (h : c.InLockstep) (events : List Event) : (c.run events).InLockstep := by
  induction events generalizing c with
  | nil => exact h
  | cons event events ih => exact ih (h.handle event)

theorem ofConfig {config : Config} {timer : ClockTimer}
    (hclock : SysClock.ofConfig config timer = .ok clock) (wakes : Wakes) :
    InLockstep { clock, wakes } := by
  obtain ⟨_, _, -, hschedule, rfl⟩ := SysClock.ofConfig_eq_ok hclock
  exact fun _ => (Schedule.lockstep_of_ofCapacity hschedule).1

end InLockstep

/-! ## One turn of the server loop -/

/-- The server stands where it stood, with the calls that it held, and no caller gets a result. -/
structure Undisturbed (c c' : RunningClock) : Prop where
  phase : c'.clock.serverPhase = c.clock.serverPhase
  received : c'.clock.endpoint.received = c.clock.endpoint.received
  result : ∀ caller, c'.clock.endpoint.result? caller = c.clock.endpoint.result? caller

namespace Undisturbed

theorem refl (c : RunningClock) : c.Undisturbed c := ⟨rfl, rfl, fun _ => rfl⟩

theorem trans (h : c.Undisturbed c') (h' : c'.Undisturbed c'') : c.Undisturbed c'' where
  phase := h'.phase.trans h.phase
  received := h'.received.trans h.received
  result caller := (h'.result caller).trans (h.result caller)

theorem call? (h : c.Undisturbed c') (k : Nat) :
    c'.clock.endpoint.call? k = c.clock.endpoint.call? k := by
  rw [Endpoint.call?, h.received, Endpoint.call?]

theorem handle (h : Kept period c) (hrunning : c.clock.serverPhase ≠ .idle)
    (hevent : event ≠ .server) : c.Undisturbed (c.handle event) := by
  cases event with
  | server => exact (hevent rfl).elim
  | start =>
    have hstarted : c.clock.isRunning = true := bne_iff_ne.2 fun hidle => hrunning (h.idle hidle)
    simp only [RunningClock.handle, SysClock.start, hstarted, if_true]
    exact refl c
  | send badge m =>
    have hreceiver := Endpoint.hasReceiver_of_live h.calls.live
    refine ⟨rfl, ?_, fun caller => ?_⟩
    · simp only [RunningClock.handle, SysClock.send, Endpoint.send, hreceiver, if_true]
    · simp only [RunningClock.handle, SysClock.send, Endpoint.send, hreceiver, if_true,
        Endpoint.result?_push_none]
  | timer =>
    simp only [RunningClock.handle]
    split
    · rename_i hstep
      cases SysClock.timerSteps_of_step hstep <;> exact ⟨rfl, rfl, fun _ => rfl⟩
    · exact refl c
  | collect | fire =>
    simp only [RunningClock.handle]
    split <;> exact ⟨rfl, rfl, fun _ => rfl⟩
  | raise =>
    simp only [RunningClock.handle]
    split
    · split <;> exact ⟨rfl, rfl, fun _ => rfl⟩
    · exact refl c
  | dropHandle | leave => exact ⟨rfl, rfl, fun _ => rfl⟩

theorem run {events : List Event} (h : Kept period c) (hrunning : c.clock.serverPhase ≠ .idle)
    (hevents : ∀ event ∈ events, event ≠ .server) : c.Undisturbed (c.run events) := by
  induction events generalizing c with
  | nil => exact refl c
  | cons event events ih =>
    have hfirst := handle h hrunning (hevents event List.mem_cons_self)
    refine hfirst.trans (ih (h.handle event) (hfirst.phase ▸ hrunning) fun event hmem => ?_)
    exact hevents event (List.mem_cons_of_mem _ hmem)

end Undisturbed

/-- What the server loop does with the next call: it receives it, handles it and replies, and others
may act after each of the first two steps. -/
structure Answered (c : RunningClock) (call : Call NotificationId) (others later : List Event) :
    Prop where
  unanswered : c.clock.endpoint.result? call.caller = none
  /-- The state changes as one answer says, and nothing is signalled. -/
  handled : let found := c.run (.server :: others)
    let left := found.handle .server
    left.clock.state = (found.clock.state.respond call.badge call.message).2 ∧
      left.wakes = found.wakes
  /-- The caller gets that answer, and no other caller gets anything. -/
  replied : let found := c.run (.server :: others)
    let after := (found.handle .server).run (later ++ [.server])
    after.clock.serverPhase = .receiving ∧
      ∀ caller, after.clock.endpoint.result? caller =
        if caller = call.caller then
          some (.ok (found.clock.state.respond call.badge call.message).1)
        else c.clock.endpoint.result? caller

theorem run_append (c : RunningClock) (events later : List Event) :
    c.run (events ++ later) = (c.run events).run later :=
  List.foldl_append

theorem unanswered_of_queue (h : Kept period c) (hphase : c.clock.serverPhase = .receiving)
    {call : Call NotificationId} {rest : List (Call NotificationId)}
    (hqueue : c.clock.endpoint.queue = call :: rest) :
    c.clock.endpoint.result? call.caller = none := by
  have hhandled : c.clock.endpoint.received.size = (tally c.history).handled := by
    have hstands := h.calls.stands
    rwa [hphase] at hstands
  have hcaller := (h.calls.queue 0 call (by rw [hqueue]; rfl)).1
  cases hresult : c.clock.endpoint.result? call.caller with
  | none => rfl
  | some result =>
    obtain ⟨other, reply, granted, hmem, hother, -⟩ := h.calls.results _ _ hresult
    have hlt := handled_lt_of_mem h.lawful hmem
    omega

theorem handle_receive (hphase : c.clock.serverPhase = .receiving) {call : Call NotificationId}
    {rest : List (Call NotificationId)} (hqueue : c.clock.endpoint.queue = call :: rest) :
    (c.handle .server).clock =
      { c.clock with
        endpoint := { c.clock.endpoint with
          queue := rest, received := c.clock.endpoint.received.push (some call) }
        serverPhase := .handling c.clock.endpoint.received.size } := by
  simp only [RunningClock.handle, SysClock.serverStep, hphase, Endpoint.receive_cons hqueue,
    Option.map_some, serve]

theorem handle_handle {k : Nat} (hphase : c.clock.serverPhase = .handling k)
    {call : Call NotificationId} (hcall : c.clock.endpoint.call? k = some call)
    (hfree : SysClock.needsSchedule call.message = true → c.clock.timerPhase ≠ .ticked) :
    (c.handle .server).clock =
        { c.clock with
          state := (c.clock.state.serve call.badge call.message).2
          serverPhase := .replying k (c.clock.state.serve call.badge call.message).1 } ∧
      (c.handle .server).wakes = c.wakes := by
  have hheld : ¬ (SysClock.needsSchedule call.message && c.clock.scheduleHeld) = true := by
    rw [Bool.and_eq_true, SysClock.scheduleHeld, beq_iff_eq]
    exact fun hboth => hfree hboth.1 hboth.2
  constructor <;>
    simp only [RunningClock.handle, SysClock.serverStep, hphase, hcall, if_neg hheld, serve]

theorem handle_reply {k : Nat} {reply : Reply} (hphase : c.clock.serverPhase = .replying k reply) :
    (c.handle .server).clock =
      { c.clock with
        endpoint := c.clock.endpoint.reply k reply.toMessage, serverPhase := .receiving } := by
  simp only [RunningClock.handle, SysClock.serverStep, hphase, serve]

theorem result?_reply (h : Kept period c) {k : Nat} {call : Call NotificationId}
    (hcall : c.clock.endpoint.call? k = some call) (m : ClockMessage) (caller : Nat) :
    (c.clock.endpoint.reply k m).result? caller =
      if caller = call.caller then some (.ok m) else c.clock.endpoint.result? caller := by
  have hlt : call.caller < c.clock.endpoint.results.size := by
    have hk := Endpoint.lt_size_of_call? hcall
    have hcaller := (h.calls.held k call hcall).1
    have hcount := h.calls.count
    omega
  rw [Endpoint.reply, Endpoint.finish_of_call? hcall]
  exact Endpoint.result?_settle hlt _ caller

/-- The server answers the next call, whatever the others do meanwhile. -/
theorem answered (h : Kept period c) (hphase : c.clock.serverPhase = .receiving)
    {call : Call NotificationId} {rest : List (Call NotificationId)}
    (hqueue : c.clock.endpoint.queue = call :: rest) {others later : List Event}
    (hothers : ∀ event ∈ others ++ later, event ≠ .server)
    (hfree : SysClock.needsSchedule call.message = true →
      (c.run (.server :: others)).clock.timerPhase ≠ .ticked) :
    c.Answered call others later := by
  have hreceive := handle_receive hphase hqueue
  have hmeanwhile : (c.handle .server).Undisturbed (c.run (.server :: others)) :=
    .run (h.handle .server) (by rw [hreceive]; nofun) fun event hmem =>
      hothers event (List.mem_append_left _ hmem)
  have hfound := h.run (.server :: others)
  -- nobody else takes the call out of its slot, so that the server handles and answers this one
  generalize hrun : c.run (.server :: others) = found at *
  have hcall : found.clock.endpoint.call? c.clock.endpoint.received.size = some call := by
    rw [hmeanwhile.call?, hreceive, Endpoint.call?_push, if_pos rfl]
  obtain ⟨hhandle, hwakes⟩ :=
    handle_handle (hmeanwhile.phase.trans (by rw [hreceive])) hcall hfree
  have hafter : (found.handle .server).Undisturbed ((found.handle .server).run later) :=
    .run (hfound.handle .server) (by rw [hhandle]; nofun) fun event hmem =>
      hothers event (List.mem_append_right _ hmem)
  have hreply := handle_reply (hafter.phase.trans (by rw [hhandle]))
  refine ⟨unanswered_of_queue h hphase hqueue, ?_, ?_⟩
  · simp only [hrun]
    exact ⟨by rw [hhandle]; rfl, hwakes⟩
  · simp only [hrun, run_append]
    refine ⟨congrArg SysClock.serverPhase hreply, fun caller => ?_⟩
    refine (congrArg (fun clock => clock.endpoint.result? caller) hreply).trans ?_
    rw [result?_reply ((hfound.handle .server).run later)
      ((hafter.call? _).trans (by rw [hhandle]; exact hcall)), hafter.result, hhandle,
      hmeanwhile.result, hreceive]
    rfl

theorem timerPhase_of_ticked (h : c.clock.timerPhase = .ticked) :
    (c.handle .timer).clock.timerPhase = .fired := by
  simp only [RunningClock.handle, SysClock.timerStep, h]

/-- Where the timer loop holds the schedule, its next step sets it free. -/
theorem exists_freed (c : RunningClock) : ∃ others : List Event,
    others.length ≤ 1 ∧ (∀ event ∈ others, event = .timer) ∧
      (c.run (.server :: others)).clock.timerPhase ≠ .ticked := by
  by_cases hticked : (c.handle .server).clock.timerPhase = .ticked
  · refine ⟨[.timer], Nat.le_refl 1, fun event hmem => List.mem_singleton.1 hmem, ?_⟩
    change ((c.handle .server).handle .timer).clock.timerPhase ≠ .ticked
    rw [timerPhase_of_ticked hticked]
    nofun
  · exact ⟨[], Nat.zero_le 1, nofun, hticked⟩

/-! ## Transparency -/

/-- Operations over the wire are the operations themselves, and the server answers every call. -/
structure WireTransparent (c : RunningClock) : Prop where
  state : c.clock.state.Transparent
  answered : ∀ call rest others later, c.clock.serverPhase = .receiving →
    c.clock.endpoint.queue = call :: rest → (∀ event ∈ others ++ later, event ≠ .server) →
    (SysClock.needsSchedule call.message = true →
      (c.run (.server :: others)).clock.timerPhase ≠ .ticked) →
    c.Answered call others later
  /-- At the latest after one step of the timer loop, the server can go on. -/
  freed : ∃ others : List Event, others.length ≤ 1 ∧ (∀ event ∈ others, event = .timer) ∧
    (c.run (.server :: others)).clock.timerPhase ≠ .ticked

/-- In every state that a clock reaches as long as names last, the wire is transparent. -/
theorem wire_transparent {config : Config} {timer : ClockTimer}
    (hclock : SysClock.ofConfig config timer = .ok clock) (htimer : timer.device = {})
    (wakes : Wakes) (events : List Event)
    (hgranted : (tally (({ clock, wakes } : RunningClock).run events).history).grants.length ≤
      Schedule.maxGranted) : (({ clock, wakes } : RunningClock).run events).WireTransparent where
  state := ClockState.transparent_of_lockstep ((InLockstep.ofConfig hclock wakes).run events hgranted)
  answered _ _ _ _ hphase hqueue hothers hfree :=
    answered ((kept_start hclock htimer wakes).run events) hphase hqueue hothers hfree
  freed := exists_freed _

/-- A client asks for a timeout while the only place is taken. -/
theorem wire_transparent_full :
    ∃ clock, SysClock.ofConfig { sysclockMaxEntries := 1 } {} = .ok clock ∧
      ({} : ClockTimer).device = {} ∧
      let c := ({ clock, wakes := .ofCount 1 } : RunningClock).run
        [.start, .send 7 (Request.toMessage (.setTimeout false 5 0)), .server, .server, .server,
          .send 8 (Request.toMessage (.setTimeout true 5 0))]
      (tally c.history).grants.length ≤ Schedule.maxGranted ∧ c.WireTransparent ∧
        c.clock.serverPhase = .receiving ∧ c.clock.endpoint.queue.length = 1 ∧
        c.clock.state.schedule.size = c.clock.state.schedule.capacity :=
  ⟨_, rfl, rfl, (by decide : 1 ≤ Schedule.maxGranted),
    wire_transparent (show SysClock.ofConfig { sysclockMaxEntries := 1 } {} = .ok _ from rfl) rfl _ _
      (by decide : 1 ≤ Schedule.maxGranted),
    rfl, rfl, rfl⟩

end RunningClock

end Osal
