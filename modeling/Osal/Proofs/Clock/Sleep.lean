import Osal.Proofs.Clock.Punctual
import Osal.Proofs.Semaphore.NoLeak

/-!
# Sleeps that end early

A sleep of `ms` milliseconds is early if it returns a tick while the ticks since it was called make up
less than `ms`. `sleepsInFull_iff`: like timeouts, sleeps of a length are never early just if the length
is at most `2147483649` milliseconds more than the period of the clock. `never_early_iff` says both.

A sleep returns the tick at which a timeout fired that the clock granted to its own call, so it is
enough to follow that timeout (`Slumber`): nobody else cancels it, and it is not due before its time.
-/

namespace Osal

def BlockingTask.SleepsFor (task : BlockingTask) (ms : Tick) : Prop :=
  ∃ client p, task = .sleep client ms p

namespace Ensemble

/-- How often the clock ticks in a run. A tick waits for the fire before it. -/
def ticks (e : Ensemble) : List EnsembleEvent → Nat
  | [] => 0
  | .tick period :: events =>
    (if e.outgoing = [] then 1 else 0) + (e.handle (.tick period)).ticks events
  | event :: events => (e.handle event).ticks events

/-- While a clock ticks with a period, no sleep of a length returns a tick early, whatever happened
before its call and happens around it. -/
def SleepsInFull (period ms : Tick) : Prop :=
  ∀ capacity schedule, Schedule.ofCapacity capacity = .ok schedule →
    ∀ (threads : Nat) (initial : Nat → Bool) (maxWaiters : Nat → Nat)
      (clocks : Nat → Option ClockClient) (tick : Tick) (before : List EnsembleEvent)
      (k : NotificationId) (client : ClockClient) (events : List EnsembleEvent),
    let e := (start threads initial maxWaiters clocks { tick, schedule }).run before
    let called := e.handle (.sleep k client ms)
    e.threads k = none → (∀ other, .tick other ∈ events → other = period) →
    granted (called.run events).history ≤ Schedule.maxGranted →
    called.ticks events * period.toNat < ms.toNat →
      ∀ returned, .slept e.calls (.ok returned) ∉ (called.run events).history

/-! ## Numbers of calls -/

/-- Only calls that were made have numbers. -/
structure Numbered (e : Ensemble) : Prop where
  threads : ∀ k call, e.threads k = some call → call.number < e.calls
  scheduled : ∀ number id, .scheduled number id ∈ e.history → number < e.calls

/-- A timeout of some length that was granted some ticks ago, and will not fire early. -/
def Ahead (clock : ClockState) (period ms : Tick) (passed : Nat) (x : TimeoutEntry) : Prop :=
  ∃ (granted : Tick) (count : Nat), count ≤ passed ∧ x.nextFire = granted + ms ∧
    clock.tick.toNat = (granted.toNat + count * period.toNat) % 4294967296

/-- A call sleeps, and the timeouts that it was granted are pending. -/
structure Slumber (e : Ensemble) (number : Nat) (period ms : Tick) (passed : Nat) : Prop where
  known : number < e.calls
  sleeps : ∀ k call, e.threads k = some call → call.number = number →
    call.task.SleepsFor ms
  pending : ∀ id, .scheduled number id ∈ e.history →
    ∃ x ∈ e.clock.schedule.pending, x.id = id ∧ Ahead e.clock period ms passed x

variable {e : Ensemble} {k : NotificationId} {call : BlockingCall} {id : TimeoutId} {number : Nat}
  {period ms : Tick} {passed : Nat} {task : BlockingTask}

theorem numbered_start (threads : Nat) (initial : Nat → Bool) (maxWaiters : Nat → Nat)
    (clocks : Nat → Option ClockClient) (clock : ClockState) :
    (start threads initial maxWaiters clocks clock).Numbered :=
  { threads := fun k call hk => by cases hk
    scheduled := fun number id hmem => by cases hmem }

theorem update_cases {threads : NotificationId → Option BlockingCall} {x : Option BlockingCall}
    {j : NotificationId} (hj : Function.update threads k x j = some call) :
    x = some call ∨ threads j = some call := by
  by_cases hjk : j = k
  · rw [hjk, Function.update_self] at hj
    exact Or.inl hj
  · rw [Function.update_of_ne hjk] at hj
    exact Or.inr hj

/-- What a thread has to show that moves on: it goes on with its call, or begins the next one. -/
theorem Numbered.put (h : e.Numbered) {x : Option BlockingCall} {wakes : Wakes}
    {news : List Happening} {semaphores : Nat → Semaphore} {clock : ClockState} {calls : Nat}
    (hcalls : e.calls ≤ calls) (hx : ∀ call, x = some call → call.number < calls)
    (hnews : ∀ number id, .scheduled number id ∈ news → number < calls) :
    Numbered { e.put k x wakes news with semaphores, clock, calls } := by
  refine ⟨fun j call hj => ?_, fun number id hmem => ?_⟩
  · rcases update_cases hj with hnew | hold
    · exact hx call hnew
    · exact Nat.lt_of_lt_of_le (h.threads j call hold) hcalls
  · rcases List.mem_append.1 hmem with hnew | hold
    · exact hnews number id hnew
    · exact Nat.lt_of_lt_of_le (h.scheduled number id hold) hcalls

theorem Slumber.put (h : e.Slumber number period ms passed) {x : Option BlockingCall}
    {wakes : Wakes} {news : List Happening} {semaphores : Nat → Semaphore} {calls : Nat}
    (hcalls : e.calls ≤ calls)
    (hx : ∀ call, x = some call → call.number = number → call.task.SleepsFor ms)
    (hnews : ∀ id, .scheduled number id ∉ news) :
    Slumber { e.put k x wakes news with semaphores, calls } number period ms passed := by
  refine ⟨Nat.lt_of_lt_of_le h.known hcalls, fun j call hj => ?_, fun id hmem => ?_⟩
  · rcases update_cases hj with hnew | hold
    · exact hx call hnew
    · exact h.sleeps j call hold
  · rcases List.mem_append.1 hmem with hnew | hold
    · exact absurd hnew (hnews id)
    · exact h.pending id hold

/-! ## What threads do -/

/-- What an event does in which no clock takes part: a thread goes on with its call or leaves it, or
it begins the next one. -/
inductive Moved (e : Ensemble) : Ensemble → Prop where
  | goOn (k : NotificationId) (x : Option BlockingCall) (wakes : Wakes) (news : List Happening)
    (semaphores : Nat → Semaphore)
    (hx : ∀ call', x = some call' → ∃ call, e.threads k = some call ∧
      call'.number = call.number ∧ ∀ ms, call.task.SleepsFor ms → call'.task.SleepsFor ms)
    (hnews : ∀ happening ∈ news, happening.id? = none) :
    Moved e { e.put k x wakes news with semaphores }
  | begin (k : NotificationId) (task : BlockingTask) :
    Moved e { e.put k (some { number := e.calls, task }) e.wakes [] with calls := e.calls + 1 }

theorem moved_of_same (wakes : Wakes) (semaphores : Nat → Semaphore) :
    e.Moved { e with wakes, semaphores } := by
  have hmoved := Moved.goOn (e := e) 0 (e.threads 0) wakes [] semaphores
    (fun call hcall => ⟨call, hcall, rfl, fun _ hsleeps => hsleeps⟩) fun _ hmem => by cases hmem
  rwa [put, Function.update_eq_self, List.nil_append] at hmoved

theorem moved_begin (k : NotificationId) (task : BlockingTask) : e.Moved (e.begin k task) := by
  rw [Ensemble.begin]
  split
  · exact .begin k task
  · exact moved_of_same e.wakes e.semaphores

theorem moved_stepTake (hk : e.threads k = some call) {i : Nat} {timeoutMs : Int32} {p : Take.Point}
    (htask : call.task = .take i timeoutMs p) : e.Moved (e.stepTake k call i timeoutMs p) := by
  have hadvance : ∀ next, e.Moved (e.advanceTake k call.number i timeoutMs next) := by
    rintro ⟨⟨s, wakes⟩, turn⟩
    refine .goOn k _ wakes _ _ (fun call' hcall => ⟨call, hk, ?_, ?_⟩) ?_
    · obtain ⟨q, -, rfl⟩ := Option.map_eq_some_iff.1 hcall
      rfl
    · rintro ms ⟨client, q, hsleep⟩
      rw [htask] at hsleep
      cases hsleep
    · cases turn with
      | goto q => exact fun _ hmem => by cases hmem
      | done outcome =>
        intro happening hmem
        obtain rfl := List.mem_singleton.1 hmem
        rfl
  unfold Ensemble.stepTake
  by_cases hinside : p.isInside = true
  · simp only [if_pos hinside]
    split
    · exact moved_of_same e.wakes e.semaphores
    · exact hadvance _
  · simp only [if_neg hinside]
    split
    · exact moved_of_same e.wakes e.semaphores
    · exact hadvance _

theorem moved_stepSleep (hk : e.threads k = some call) {client : ClockClient} {p : Sleep.Point}
    (htask : call.task = .sleep client ms p) : e.Moved (e.stepSleep k call client ms p) := by
  have hadvance : ∀ next, e.Moved (e.advanceSleep k call.number client ms next) := by
    rintro ⟨wakes, turn⟩
    cases turn with
    | goto q =>
      refine .goOn k _ wakes [] e.semaphores (fun call' hcall => ⟨call, hk, ?_, ?_⟩)
        fun _ hmem => by cases hmem
      · obtain rfl := Option.some.inj hcall
        rfl
      · rintro other ⟨client', q', hsleep⟩
        obtain rfl := Option.some.inj hcall
        rw [htask] at hsleep
        cases hsleep
        exact ⟨client, q, rfl⟩
    | done outcome =>
      refine .goOn k none wakes [.slept call.number outcome] e.semaphores
        (fun _ hcall => by cases hcall) fun happening hmem => ?_
      obtain rfl := List.mem_singleton.1 hmem
      rfl
  unfold Ensemble.stepSleep
  cases p with
  | scheduling =>
    simp only
    split
    · exact moved_of_same e.wakes e.semaphores
    · exact hadvance _
  | sleeping id =>
    simp only
    split
    · exact moved_of_same e.wakes e.semaphores
    · exact hadvance _

theorem moved_give (i : Nat) : e.Moved (e.handle (.give i)) := by
  simp only [handle]
  split
  · exact moved_of_same e.wakes e.semaphores
  · exact moved_of_same ..

theorem moved_step (k : NotificationId) : e.Moved (e.handle (.step k)) := by
  cases hk : e.threads k with
  | none =>
    simp only [handle, hk]
    exact moved_of_same e.wakes e.semaphores
  | some call =>
    cases htask : call.task with
    | take i timeoutMs p =>
      simp only [handle, hk, htask]
      exact moved_stepTake hk htask
    | sleep client ms p =>
      simp only [handle, hk, htask]
      exact moved_stepSleep hk htask

theorem Numbered.moved {e' : Ensemble} (h : e.Numbered) (hmoved : e.Moved e') : e'.Numbered := by
  cases hmoved with
  | goOn k x wakes news semaphores hx hnews =>
    refine h.put (Nat.le_refl _) (fun call' hcall => ?_) fun number id hmem => ?_
    · obtain ⟨call, hk, hnumber, -⟩ := hx call' hcall
      exact hnumber ▸ h.threads k call hk
    · cases hnews _ hmem
  | begin k task =>
    refine h.put (Nat.le_succ _) (fun call hcall => ?_) fun number id hmem => by cases hmem
    obtain rfl := Option.some.inj hcall
    exact Nat.lt_succ_self _

theorem Slumber.moved {e' : Ensemble} (h : e.Slumber number period ms passed) (hmoved : e.Moved e') :
    e'.Slumber number period ms passed := by
  cases hmoved with
  | goOn k x wakes news semaphores hx hnews =>
    refine h.put (Nat.le_refl _) (fun call' hcall heq => ?_) fun id hmem => by cases hnews _ hmem
    obtain ⟨call, hk, hnumber, hkind⟩ := hx call' hcall
    exact hkind ms (h.sleeps k call hk (hnumber ▸ heq))
  | begin k task =>
    refine h.put (Nat.le_succ _) (fun call hcall heq => ?_) fun id hmem => by cases hmem
    obtain rfl := Option.some.inj hcall
    exact absurd heq.symm (Nat.ne_of_lt h.known)

/-! ## What the clock does -/

theorem numbered_handle (h : e.Numbered) (event : EnsembleEvent) : (e.handle event).Numbered := by
  cases event with
  | take k i timeoutMs => exact h.moved (moved_begin ..)
  | sleep k client ms => exact h.moved (moved_begin ..)
  | give i => exact h.moved (moved_give i)
  | step k => exact h.moved (moved_step k)
  | serve k =>
    cases hk : e.threads k with
    | none =>
      simp only [handle, hk]
      exact h
    | some call =>
      simp only [handle, hk]
      have hknown := h.threads k call hk
      rcases serve_cases e k call with heq | ⟨badge, request, -, -, -, heq⟩
      · rw [heq]
        exact h
      · rw [heq]
        refine h.put (Nat.le_refl _) (fun call' hcall => ?_) fun number id hmem => ?_
        · obtain rfl := Option.some.inj hcall
          exact hknown
        · generalize (e.clock.handle badge request).1 = reply at hmem
          cases reply with
          | scheduled id' insertedAt =>
            cases List.mem_singleton.1 hmem
            exact hknown
          | time | cancelled | failed => cases hmem
  | tick period =>
    simp only [handle]
    split
    · exact ⟨h.threads, h.scheduled⟩
    · exact h
  | deliver =>
    simp only [handle]
    split
    · exact h
    · refine ⟨h.threads, fun number id hmem => ?_⟩
      exact h.scheduled number id ((List.mem_cons.1 hmem).resolve_left fun heq => by cases heq)

theorem numbered_run (h : e.Numbered) (events : List EnsembleEvent) : (e.run events).Numbered := by
  unfold run
  induction events generalizing e with
  | nil => exact h
  | cons event events ih => exact ih (numbered_handle h event)

theorem number_unique {history : List Happening} (h : Explained history) {first second : Nat}
    (hfirst : .scheduled first id ∈ history) (hsecond : .scheduled second id ∈ history) :
    first = second := by
  induction history with
  | nil => cases hfirst
  | cons happening older ih =>
    rcases List.mem_cons.1 hfirst with rfl | hold
    · rcases List.mem_cons.1 hsecond with heq | hold'
      · cases heq
        rfl
      · exact (h.1 (.scheduled second id) hold' rfl).elim
    · rcases List.mem_cons.1 hsecond with rfl | hold'
      · exact (h.1 (.scheduled first id) hold rfl).elim
      · exact ih h.2 hold hold'

theorem Slumber.serve_granted (h : e.Slumber number period ms passed) (hk : e.threads k = some call)
    {reply : Reply} {schedule : Schedule} {x : TimeoutEntry}
    (hpending : schedule.pending = e.clock.schedule.pending ++ [x])
    (hx : call.number = number → x.nextFire = e.clock.tick + ms) :
    Slumber { e.put k (some { call with reply := some reply }) e.wakes
      [.scheduled call.number x.id] with clock := { e.clock with schedule } }
      number period ms passed := by
  refine ⟨h.known, fun j call' hj heq => ?_, fun id hmem => ?_⟩
  · rcases update_cases hj with hnew | hold
    · obtain rfl := Option.some.inj hnew
      exact h.sleeps k call hk heq
    · exact h.sleeps j call' hold heq
  · rcases List.mem_cons.1 hmem with heq | hmem
    · cases heq
      exact ⟨x, hpending ▸ List.mem_append_right _ (List.mem_singleton_self x), rfl,
        e.clock.tick, 0, Nat.zero_le _, hx rfl, toNat_no_ticks e.clock.tick period⟩
    · obtain ⟨y, hy, hid, hahead⟩ := h.pending id hmem
      exact ⟨y, hpending ▸ List.mem_append_left _ hy, hid, hahead⟩

/-- The clock cancels a timeout of a take, which is not one of a sleep. -/
theorem Slumber.serve_cancel (h : e.Slumber number period ms passed) (hsound : e.Sound)
    (hk : e.threads k = some call) {i : Nat} {timeoutMs : Int32} {wake : Wakeup}
    (htask : call.task = .take i timeoutMs (.cancelling id wake)) (badge : Badge) :
    let answer := e.clock.handle badge (.cancelTimeout id)
    Slumber { e.put k (some { call with reply := some answer.1 }) e.wakes
      (replyNews call.number answer.1) with clock := answer.2 } number period ms passed := by
  have howned : .scheduled call.number id ∈ e.history :=
    (hsound.fits k call hk).owned id (by simp only [BlockingCall.named?, htask])
  have htake : call.number ≠ number := by
    intro heq
    obtain ⟨client, p, hsleep⟩ := h.sleeps k call hk heq
    rw [htask] at hsleep
    cases hsleep
  have hanswer : ∃ reply clock, e.clock.handle badge (.cancelTimeout id) = (reply, clock) ∧
      replyNews call.number reply = [] ∧ clock.tick = e.clock.tick ∧
      ∀ x ∈ e.clock.schedule.pending, x.id ≠ id → x ∈ clock.schedule.pending := by
    by_cases hid : ∃ x ∈ e.clock.schedule.pending, x.id = id
    · obtain ⟨s', hcancel, -, -, hpending, -⟩ := Schedule.cancel_of_mem hsound.lockstep hid
      refine ⟨.cancelled, { e.clock with schedule := s' }, ?_, rfl, rfl, fun x hx hne => ?_⟩
      · simp only [ClockState.handle, hcancel]
      · exact hpending ▸ List.mem_filter.2 ⟨hx, by simpa using hne⟩
    · have habsent : ∀ x ∈ e.clock.schedule.pending, x.id ≠ id := fun x hx heq => hid ⟨x, hx, heq⟩
      refine ⟨.failed .failed, e.clock, ?_, rfl, rfl, fun x hx _ => hx⟩
      simp only [ClockState.handle, Schedule.cancel_of_notMem hsound.lockstep habsent]
  obtain ⟨reply, clock, hanswer, hnews, htick, hkept⟩ := hanswer
  simp only [hanswer, hnews]
  have hput : (e.put k (some { call with reply := some reply }) e.wakes []).Slumber number period ms
      passed := by
    refine h.put (Nat.le_refl _) (fun call' hcall heq => ?_) fun id hmem => by cases hmem
    obtain rfl := Option.some.inj hcall
    exact absurd heq htake
  refine ⟨hput.known, hput.sleeps, fun id' hmem => ?_⟩
  obtain ⟨x, hx, rfl, granted, count, hcount, hnext, hnow⟩ := h.pending id' hmem
  have hne : x.id ≠ id := fun heq => htake (number_unique hsound.explained howned (heq ▸ hmem))
  exact ⟨x, hkept x hx hne, rfl, granted, count, hcount, hnext, htick.symm ▸ hnow⟩

theorem request?_of_sleeps (hsleeps : call.task.SleepsFor ms) {badge : Badge} {periodic : Bool}
    {length : Tick} {wake : NotificationId}
    (hrequest : e.request? k call = some (badge, .setTimeout periodic length wake)) :
    length = ms := by
  obtain ⟨client, p, htask⟩ := hsleeps
  simp only [request?, htask] at hrequest
  cases p with
  | scheduling =>
    cases hrequest
    rfl
  | sleeping id => cases hrequest

theorem Slumber.serve (h : e.Slumber number period ms passed) (hsound : e.Sound)
    (hk : e.threads k = some call)
    (hn : granted (e.serve k call).history ≤ Schedule.maxGranted) :
    (e.serve k call).Slumber number period ms passed := by
  rcases serve_cases e k call with heq | ⟨badge, request, hrequest, -, -, heq⟩
  · rw [heq]
    exact h
  rw [heq] at hn ⊢
  rcases request?_cases hrequest with ⟨-, length, rfl⟩ | ⟨i, timeoutMs, id, wake, htask, rfl⟩
  · rcases Nat.lt_or_eq_of_le hsound.lockstep.size_le with hroom | hfull
    · obtain ⟨id, s', hok⟩ := Schedule.insert_isOk_of_lt hsound.lockstep hroom e.clock.tick badge
        false length k
      have hgrants : e.clock.handle badge (.setTimeout false length k) =
          (.scheduled id e.clock.tick, { e.clock with schedule := s' }) := by
        simp only [ClockState.handle, hok]
      rw [hgrants] at hn ⊢
      have hlt : granted e.history < Schedule.maxGranted := by
        have hcount : granted ([.scheduled call.number id] ++ e.history) ≤ _ := hn
        rw [granted_append] at hcount
        have hone : granted [.scheduled call.number id] = 1 := rfl
        omega
      obtain ⟨s'', hinsert, -, -, hpending, -⟩ :=
        Schedule.insert_of_lt hsound.lockstep hlt hroom e.clock.tick badge false length k
      obtain ⟨hsame, rfl⟩ := Prod.mk.inj (hok.symm.trans hinsert)
      obtain rfl := Except.ok.inj hsame
      refine h.serve_granted hk hpending fun hnumber => ?_
      rw [request?_of_sleeps (h.sleeps k call hk hnumber) hrequest]
    · have hrefused : e.clock.handle badge (.setTimeout false length k) =
          (.failed .failed, e.clock) := by
        simp only [ClockState.handle, Schedule.insert_of_full hsound.lockstep hfull]
      rw [hrefused]
      refine h.put (Nat.le_refl _) (fun call' hcall hnumber => ?_) fun id hmem => by cases hmem
      obtain rfl := Option.some.inj hcall
      exact h.sleeps k call hk hnumber
  · exact h.serve_cancel hsound hk htask badge

theorem Slumber.tick (h : e.Slumber number period ms passed) (hsound : e.Sound)
    (hout : e.outgoing = []) (hms : ms.toNat ≤ period.toNat + 2147483649)
    (hlt : (passed + 1) * period.toNat < ms.toNat) :
    (e.handle (.tick period)).Slumber number period ms (passed + 1) := by
  obtain ⟨s', hfired, -, hpending, -⟩ :=
    fireDue_spec (e.clock.advance period) hsound.lockstep e.wakes
  simp only [handle, hout, hfired]
  refine ⟨h.known, h.sleeps, fun id hmem => ?_⟩
  obtain ⟨x, hx, hid, granted, count, hcount, hnext, hnow⟩ := h.pending id hmem
  have hadvanced := ClockState.toNat_advance hnow
  have hbefore : (count + 1) * period.toNat < ms.toNat :=
    Nat.lt_of_le_of_lt (Nat.mul_le_mul_right _ (Nat.succ_le_succ hcount)) hlt
  have hdue : x.isDue (e.clock.advance period).tick = false :=
    TimeoutEntry.isDue_of_early hadvanced hnext hms hbefore
  refine ⟨x, ?_, hid, granted, count + 1, Nat.succ_le_succ hcount, hnext, hadvanced⟩
  show x ∈ s'.pending
  rw [hpending, List.mem_filterMap]
  exact ⟨x, hx, by rw [TimeoutEntry.afterFire, hdue]; rfl⟩

theorem ticks_cons (e : Ensemble) (event : EnsembleEvent) (events : List EnsembleEvent) :
    e.ticks (event :: events) = e.ticks [event] + (e.handle event).ticks events := by
  cases event <;> simp [ticks]

theorem Slumber.handle (h : e.Slumber number period ms passed) (hsound : e.Sound)
    (event : EnsembleEvent) (hperiod : ∀ other, event = .tick other → other = period)
    (hms : ms.toNat ≤ period.toNat + 2147483649)
    (hn : granted (e.handle event).history ≤ Schedule.maxGranted)
    (hlt : (passed + e.ticks [event]) * period.toNat < ms.toNat) :
    (e.handle event).Slumber number period ms (passed + e.ticks [event]) := by
  cases event with
  | take k i timeoutMs => exact h.moved (moved_begin ..)
  | sleep k client ms => exact h.moved (moved_begin ..)
  | give i => exact h.moved (moved_give i)
  | step k => exact h.moved (moved_step k)
  | serve k =>
    cases hk : e.threads k with
    | none =>
      simp only [Ensemble.handle, hk]
      exact h
    | some call =>
      simp only [Ensemble.handle, hk] at hn ⊢
      exact h.serve hsound hk hn
  | tick other =>
    obtain rfl := hperiod other rfl
    cases hout : e.outgoing with
    | nil =>
      have hone : e.ticks [.tick other] = 1 := by simp [ticks, hout]
      rw [hone] at hlt ⊢
      exact h.tick hsound hout hms hlt
    | cons d outgoing =>
      have hnone : e.ticks [.tick other] = 0 := by simp [ticks, hout]
      rw [hnone]
      simp only [Ensemble.handle, hout]
      exact h
  | deliver =>
    simp only [Ensemble.handle]
    split
    · exact h
    · refine ⟨h.known, h.sleeps, fun id hmem => h.pending id ?_⟩
      exact (List.mem_cons.1 hmem).resolve_left fun heq => by cases heq

theorem Slumber.run (h : e.Slumber number period ms passed) (hsound : e.Sound)
    (events : List EnsembleEvent) (hperiod : ∀ other, .tick other ∈ events → other = period)
    (hms : ms.toNat ≤ period.toNat + 2147483649)
    (hn : granted (e.run events).history ≤ Schedule.maxGranted)
    (hlt : (passed + e.ticks events) * period.toNat < ms.toNat) :
    (e.run events).Slumber number period ms (passed + e.ticks events) := by
  induction events generalizing e passed with
  | nil => exact h
  | cons event events ih =>
    rw [ticks_cons, ← Nat.add_assoc] at hlt ⊢
    have hlater := Nat.le_trans (granted_mono (suffix_run (e.handle event) events)) hn
    have hhead : (passed + e.ticks [event]) * period.toNat < ms.toNat :=
      Nat.lt_of_le_of_lt (Nat.mul_le_mul_right _ (Nat.le_add_right ..)) hlt
    have hnext := h.handle hsound event
      (fun other heq => hperiod other (heq ▸ List.mem_cons_self)) hms hlater hhead
    exact ih hnext (sound_handle hsound event hlater)
      (fun other hmem => hperiod other (List.mem_cons_of_mem _ hmem)) hn hlt

theorem Slumber.not_slept (h : e.Slumber number period ms passed) (hsound : e.Sound)
    (returned : Tick) : .slept number (.ok returned) ∉ e.history := by
  intro hmem
  obtain ⟨newer, older, hhistory⟩ := List.append_of_mem hmem
  obtain ⟨id, hscheduled, hfired⟩ := hsound.nothingLeaks.slept newer older number returned hhistory
  have hold : ∀ happening ∈ older, happening ∈ e.history := fun happening hin =>
    hhistory ▸ List.mem_append_right _ (List.mem_cons_of_mem _ hin)
  obtain ⟨x, hx, rfl, -⟩ := h.pending id (hold _ hscheduled)
  obtain ⟨k, hwake⟩ := hsound.lockstep.wakeOf_of_mem hx
  exact hsound.unfired x.id k (Or.inl ⟨⟨x, hx, rfl⟩, hwake⟩) returned (hold _ hfired)

theorem slumber_sleep (h : e.Numbered) (hk : e.threads k = none) (client : ClockClient)
    (period ms : Tick) : (e.handle (.sleep k client ms)).Slumber e.calls period ms 0 := by
  simp only [Ensemble.handle, Ensemble.begin, hk]
  refine ⟨Nat.lt_succ_self _, fun j call hj heq => ?_, fun id hmem => ?_⟩
  · rcases update_cases hj with hnew | hold
    · obtain rfl := Option.some.inj hnew
      exact ⟨client, .scheduling, rfl⟩
    · exact absurd heq (Nat.ne_of_lt (h.threads j call hold))
  · exact absurd (h.scheduled e.calls id hmem) (Nat.lt_irrefl _)

theorem sleepsInFull_of_le (hms : ms.toNat ≤ period.toNat + 2147483649) : SleepsInFull period ms := by
  intro capacity schedule hmade threads initial maxWaiters clocks tick before k client events e called
    hk hperiod hn hlt returned
  obtain ⟨hlock, hempty⟩ := Schedule.lockstep_of_ofCapacity hmade
  have hstart := sound_start hlock hempty threads initial maxWaiters clocks tick
  have hcalled : granted called.history ≤ Schedule.maxGranted :=
    Nat.le_trans (granted_mono (suffix_run called events)) hn
  have hsound : e.Sound :=
    sound_run hstart before (Nat.le_trans (granted_mono (suffix_handle e _)) hcalled)
  have hslumber := slumber_sleep (numbered_run (numbered_start ..) before) hk client period ms
  have hsound' : called.Sound := sound_handle hsound _ hcalled
  have hend := hslumber.run hsound' events hperiod hms hn (by rwa [Nat.zero_add])
  exact hend.not_slept (sound_run hsound' events hn) returned

/-! ## A sleep that is too long -/

def sleeper (clock : ClockState) (ms : Tick) (id : TimeoutId) : Ensemble :=
  { semaphores := fun _ => .ofSize false 0 none
    clock, wakes := .ofCount 1
    threads := Function.update (fun _ => none) 0
      (some { number := 0, task := .sleep ⟨0⟩ ms (.sleeping id) })
    calls := 1, history := [.scheduled 0 id] }

theorem run_serve_step {clock : ClockState} {s' : Schedule}
    (hinsert : clock.schedule.insert clock.tick 0 false ms 0 = (.ok id, s')) :
    ((start 1 (fun _ => false) (fun _ => 0) (fun _ => none) clock).handle
      (.sleep 0 ⟨0⟩ ms)).run [.serve 0, .step 0] = sleeper { clock with schedule := s' } ms id := by
  simp [run, handle, begin, put, start, serve, request?, Sleep.request?, ClockState.handle,
    hinsert, replyNews, stepSleep, advanceSleep, Sleep.answered, ClockClient.scheduledOf_scheduled,
    sleeper]

theorem run_tick_deliver_step {clock : ClockState}
    (hdue : clock.schedule.deliveries (clock.advance period).tick = [(id, 0)]) :
    ((sleeper clock ms id).run [.tick period, .deliver, .step 0]).history =
      [.slept 0 (.ok (clock.advance period).tick), .fired id (clock.advance period).tick,
        .scheduled 0 id] := by
  have hdue' : (clock.advance period).schedule.deliveries (clock.advance period).tick = [(id, 0)] :=
    hdue
  have htick : ((clock.advance period).fireDue (.ofCount 1)).1.tick = (clock.advance period).tick :=
    rfl
  have hwake : ∀ wake, ((Wakes.ofCount 1).signal 0 wake).2.pending? 0 = some wake := fun wake => by
    rw [Wakes.pending?_signal_self (Wakes.isLive_ofCount Nat.one_pos), Wakes.pending?_ofCount]
    rfl
  simp [sleeper, run, handle, hdue', stepSleep, Sleep.step_sleeping, hwake, advanceSleep, put, htick]

theorem deliveries_of_long {clock : ClockState} {s' : Schedule} {x : TimeoutEntry}
    (hms : period.toNat + 2147483649 < ms.toNat) (hpending : s'.pending = [x])
    (hnext : x.nextFire = clock.tick + ms) (hwake : s'.wakeOf x.id = some k) :
    s'.deliveries (clock.advance period).tick = [(x.id, k)] := by
  have hdue : x.isDue (clock.advance period).tick = true := TimeoutEntry.isDue_of_long hnext hms
  rw [Schedule.deliveries, Schedule.due, hpending, List.filter_cons_of_pos hdue]
  simp [hwake]

def caller (s : Schedule) (ms : Tick) : Ensemble :=
  (start 1 (fun _ => false) (fun _ => 0) (fun _ => none) { tick := 0, schedule := s }).handle
    (.sleep 0 ⟨0⟩ ms)

/-- The clock answers the call, ticks once and fires. -/
def oneTick (period : Tick) : List EnsembleEvent :=
  [.serve 0, .step 0, .tick period, .deliver, .step 0]

theorem run_oneTick {s : Schedule} (hlock : s.Lockstep 0) (hempty : s.pending = [])
    (hroom : s.size < s.capacity) (hms : period.toNat + 2147483649 < ms.toNat) :
    (caller s ms).ticks (oneTick period) = 1 ∧
      granted ((caller s ms).run (oneTick period)).history = 1 ∧
      ∃ now, .slept 0 (.ok now) ∈ ((caller s ms).run (oneTick period)).history := by
  obtain ⟨s', hinsert, -, -, hpending, -, hwake, -⟩ :=
    Schedule.insert_of_lt hlock (by decide) hroom 0 0 false ms 0
  rw [hempty, List.nil_append] at hpending
  let clock : ClockState := { tick := 0, schedule := s' }
  have hdue : s'.deliveries (clock.advance period).tick = [(s.nextId, 0)] :=
    deliveries_of_long hms hpending rfl hwake
  have hasleep : (caller s ms).run [.serve 0, .step 0] = sleeper clock ms s.nextId :=
    run_serve_step hinsert
  have hrest : ((sleeper clock ms s.nextId).run [.tick period, .deliver, .step 0]).history =
      [.slept 0 (.ok (clock.advance period).tick), .fired s.nextId (clock.advance period).tick,
        .scheduled 0 s.nextId] := run_tick_deliver_step hdue
  -- up to the reply and its reading no tick counts, and then one does
  have hhistory : ((caller s ms).run (oneTick period)).history =
      (((caller s ms).run [.serve 0, .step 0]).run [.tick period, .deliver, .step 0]).history :=
    congrArg history (run_append _ [.serve 0, .step 0] [.tick period, .deliver, .step 0])
  have hticks : (caller s ms).ticks (oneTick period) =
      ((caller s ms).run [.serve 0, .step 0]).ticks [.tick period, .deliver, .step 0] := rfl
  rw [hasleep] at hhistory hticks
  rw [hhistory, hrest, hticks]
  exact ⟨rfl, rfl, _, List.mem_cons_self⟩

theorem not_sleepsInFull_of_lt (hms : period.toNat + 2147483649 < ms.toNat) :
    ¬ SleepsInFull period ms := by
  intro hfull
  obtain ⟨s, hmade, hlock, hcapacity, hempty, -⟩ := Schedule.ofCapacity_spec Nat.one_pos
  have hroom : s.size < s.capacity := by
    rw [hlock.size_eq, hcapacity, hempty]
    exact Nat.one_pos
  obtain ⟨hticks, hgranted, now, hslept⟩ := run_oneTick hlock hempty hroom hms
  have hperiod : ∀ other, .tick other ∈ oneTick period → other = period := by
    intro other hmem
    simpa [oneTick] using hmem
  have hfew : granted ((caller s ms).run (oneTick period)).history ≤ Schedule.maxGranted := by
    rw [hgranted]
    decide
  have hearly : (caller s ms).ticks (oneTick period) * period.toNat < ms.toNat := by
    rw [hticks]
    omega
  have hnever := hfull 1 s hmade 1 (fun _ => false) (fun _ => 0) (fun _ => none) 0 [] 0 ⟨0⟩
    (oneTick period) rfl hperiod hfew hearly now
  exact hnever hslept

/-- Like timeouts, sleeps of a length are never early just if the length is at most half the range of
ticks, and a little, more than the period. -/
theorem sleepsInFull_iff (period ms : Tick) :
    SleepsInFull period ms ↔ ms.toNat ≤ period.toNat + 2147483649 :=
  ⟨fun hfull => Nat.le_of_not_lt fun hlong => not_sleepsInFull_of_lt hlong hfull,
    sleepsInFull_of_le⟩

/-- Timeouts and sleeps of a length never end early just if the length is at most half the range of
ticks, and a little, more than the period. -/
theorem never_early_iff (period ms : Tick) :
    (ClockState.Punctual period ms ↔ ms.toNat ≤ period.toNat + 2147483649) ∧
      (SleepsInFull period ms ↔ ms.toNat ≤ period.toNat + 2147483649) :=
  ⟨ClockState.punctual_iff period ms, sleepsInFull_iff period ms⟩

theorem early_three_billion :
    ¬ ClockState.Punctual 1 3000000000 ∧ ¬ SleepsInFull 1 3000000000 := by
  rw [ClockState.punctual_iff, sleepsInFull_iff]
  decide

end Ensemble

end Osal
