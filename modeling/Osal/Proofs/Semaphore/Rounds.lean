import Mathlib.Data.Nat.Find
import Osal.Proofs.Clock.Requests
import Osal.Proofs.Clock.Sleep

/-!
# Takes that outlast their timeout

A take that is released and finds the semaphore taken waits again, with another timeout of the whole
length. `bounded_take_iff`: each timeout that the clock grants a take is due that many milliseconds
after it was granted, so they are all due in time after the first just if they were all granted at the
time of the first.

Time is counted without wrap from the call on (`elapsed`).
-/

namespace Osal

def BlockingTask.TakesFor (task : BlockingTask) (timeoutMs : Int32) : Prop :=
  ∃ i p, task = .take i timeoutMs p

namespace Ensemble

def elapsed (e : Ensemble) : List EnsembleEvent → Nat
  | [] => 0
  | .tick period :: events =>
    (if e.outgoing = [] then period.toNat else 0) + (e.handle (.tick period)).elapsed events
  | event :: events => (e.handle event).elapsed events

/-- At some time of a run the clock grants a timeout to a call. -/
def GrantsTo (e : Ensemble) (events : List EnsembleEvent) (number time : Nat) (x : TimeoutEntry) :
    Prop :=
  ∃ before k after, events = before ++ .serve k :: after ∧ time = e.elapsed before ∧
    ((e.run before).handle (.serve k)).history = .scheduled number x.id :: (e.run before).history ∧
    x ∈ ((e.run before).handle (.serve k)).clock.schedule.pending

/-- The timeouts that a run grants to a call are all due at most a number of milliseconds after the
first of them was granted. -/
def BoundsCall (e : Ensemble) (events : List EnsembleEvent) (number ms : Nat) : Prop :=
  ∀ first x, e.GrantsTo events number first x →
    (∀ time y, e.GrantsTo events number time y → first ≤ time) →
      ∀ time y, e.GrantsTo events number time y → time + y.period.toNat ≤ first + ms

/-- A call is a take with a timeout. -/
structure Taking (e : Ensemble) (number : Nat) (timeoutMs : Int32) : Prop where
  known : number < e.calls
  takes : ∀ k call, e.threads k = some call → call.number = number → call.task.TakesFor timeoutMs

variable {e : Ensemble} {k : NotificationId} {call : BlockingCall} {id : TimeoutId}
  {number time : Nat} {x : TimeoutEntry} {timeoutMs : Int32}

/-! ## What a call takes -/

theorem Taking.put (h : e.Taking number timeoutMs) {x : Option BlockingCall} {wakes : Wakes}
    {news : List Happening} {semaphores : Nat → Semaphore} {clock : ClockState} {calls : Nat}
    (hcalls : e.calls ≤ calls)
    (hx : ∀ call, x = some call → call.number = number → call.task.TakesFor timeoutMs) :
    Taking { e.put k x wakes news with semaphores, clock, calls } number timeoutMs := by
  refine ⟨Nat.lt_of_lt_of_le h.known hcalls, fun j call hj hnumber => ?_⟩
  rcases update_cases hj with hnew | hold
  · exact hx call hnew hnumber
  · exact h.takes j call hold hnumber

theorem Taking.begin (h : e.Taking number timeoutMs) (k : NotificationId) (task : BlockingTask) :
    (e.begin k task).Taking number timeoutMs := by
  rw [Ensemble.begin]
  split
  · refine h.put (Nat.le_succ _) fun call hcall hnumber => ?_
    obtain rfl := Option.some.inj hcall
    exact absurd hnumber (Nat.ne_of_gt h.known)
  · exact h

theorem Taking.stepTake (h : e.Taking number timeoutMs) (hk : e.threads k = some call) {i : Nat}
    {ms : Int32} {p : Take.Point} (htask : call.task = .take i ms p) :
    (e.stepTake k call i ms p).Taking number timeoutMs := by
  have hadvance : ∀ next, (e.advanceTake k call.number i ms next).Taking number timeoutMs := by
    intro next
    refine h.put (Nat.le_refl _) fun call' hcall hnumber => ?_
    obtain ⟨q, -, rfl⟩ := Option.map_eq_some_iff.1 hcall
    obtain ⟨i', p', htakes⟩ := h.takes k call hk hnumber
    rw [htask] at htakes
    cases htakes
    exact ⟨i, q, rfl⟩
  unfold Ensemble.stepTake
  by_cases hinside : p.isInside = true
  · simp only [if_pos hinside]
    split
    · exact h
    · exact hadvance _
  · simp only [if_neg hinside]
    split
    · exact h
    · exact hadvance _

theorem Taking.stepSleep (h : e.Taking number timeoutMs) (hk : e.threads k = some call)
    {client : ClockClient} {ms : Tick} {p : Sleep.Point} (htask : call.task = .sleep client ms p) :
    (e.stepSleep k call client ms p).Taking number timeoutMs := by
  have hadvance : ∀ next,
      (e.advanceSleep k call.number client ms next).Taking number timeoutMs := by
    rintro ⟨wakes, turn⟩
    cases turn with
    | done outcome => exact h.put (Nat.le_refl _) fun _ hcall => by cases hcall
    | goto q =>
      refine h.put (Nat.le_refl _) fun call' hcall hnumber => ?_
      obtain rfl := Option.some.inj hcall
      obtain ⟨i, p', htakes⟩ := h.takes k call hk hnumber
      rw [htask] at htakes
      cases htakes
  unfold Ensemble.stepSleep
  cases p with
  | scheduling =>
    simp only
    split
    · exact h
    · exact hadvance _
  | sleeping id =>
    simp only
    split
    · exact h
    · exact hadvance _

theorem Taking.handle (h : e.Taking number timeoutMs) (event : EnsembleEvent) :
    (e.handle event).Taking number timeoutMs := by
  cases event with
  | take k i ms => exact h.begin ..
  | sleep k client ms => exact h.begin ..
  | give i =>
    simp only [Ensemble.handle]
    split
    · exact h
    · exact ⟨h.known, h.takes⟩
  | step k =>
    cases hk : e.threads k with
    | none =>
      simp only [Ensemble.handle, hk]
      exact h
    | some call =>
      cases htask : call.task with
      | take i ms p =>
        simp only [Ensemble.handle, hk, htask]
        exact h.stepTake hk htask
      | sleep client ms p =>
        simp only [Ensemble.handle, hk, htask]
        exact h.stepSleep hk htask
  | serve k =>
    cases hk : e.threads k with
    | none =>
      simp only [Ensemble.handle, hk]
      exact h
    | some call =>
      simp only [Ensemble.handle, hk]
      rcases serve_cases e k call with heq | ⟨badge, request, -, -, -, heq⟩
      · rw [heq]
        exact h
      · rw [heq]
        refine h.put (Nat.le_refl _) fun call' hcall hnumber => ?_
        obtain rfl := Option.some.inj hcall
        exact h.takes k call hk hnumber
  | tick period =>
    simp only [Ensemble.handle]
    split
    · exact ⟨h.known, h.takes⟩
    · exact h
  | deliver =>
    simp only [Ensemble.handle]
    split
    · exact h
    · exact ⟨h.known, h.takes⟩

theorem Taking.run (h : e.Taking number timeoutMs) (events : List EnsembleEvent) :
    (e.run events).Taking number timeoutMs := by
  induction events generalizing e with
  | nil => exact h
  | cons event events ih => exact ih (h.handle event)

theorem taking_take (h : e.Numbered) (hk : e.threads k = none) (i : Nat) (timeoutMs : Int32) :
    (e.handle (.take k i timeoutMs)).Taking e.calls timeoutMs := by
  simp only [Ensemble.handle, Ensemble.begin, hk]
  refine ⟨Nat.lt_succ_self _, fun j call hj hnumber => ?_⟩
  rcases update_cases hj with hnew | hold
  · obtain rfl := Option.some.inj hnew
    exact ⟨i, .entering, rfl⟩
  · exact absurd hnumber (Nat.ne_of_lt (h.threads j call hold))

/-! ## What passes -/

theorem elapsed_cons (e : Ensemble) (event : EnsembleEvent) (events : List EnsembleEvent) :
    e.elapsed (event :: events) = e.elapsed [event] + (e.handle event).elapsed events := by
  cases event <;> simp [elapsed]

@[simp] theorem elapsed_append (e : Ensemble) (front back : List EnsembleEvent) :
    e.elapsed (front ++ back) = e.elapsed front + (e.run front).elapsed back := by
  induction front generalizing e with
  | nil => exact (Nat.zero_add _).symm
  | cons event front ih =>
    rw [List.cons_append, elapsed_cons, ih, ← Nat.add_assoc, ← elapsed_cons]
    rfl

theorem clock_of_moved {e' : Ensemble} (hmoved : e.Moved e') : e'.clock = e.clock := by
  cases hmoved <;> rfl

@[simp] theorem tick_serve (e : Ensemble) (k : NotificationId) (call : BlockingCall) :
    (e.serve k call).clock.tick = e.clock.tick := by
  rcases serve_cases e k call with heq | ⟨badge, request, -, -, -, heq⟩
  · rw [heq]
  · rw [heq]
    exact e.clock.tick_handle badge request

theorem tick_handle (e : Ensemble) (event : EnsembleEvent) :
    (e.handle event).clock.tick = e.clock.tick + .ofNat (e.elapsed [event]) := by
  have hmoved : ∀ {e'}, e.Moved e' → e'.clock.tick = e.clock.tick + .ofNat 0 := fun h => by
    rw [clock_of_moved h]
    exact (UInt32.add_zero _).symm
  cases event with
  | take k i ms => exact hmoved (moved_begin ..)
  | sleep k client ms => exact hmoved (moved_begin ..)
  | give i => exact hmoved (moved_give i)
  | step k => exact hmoved (moved_step k)
  | serve k =>
    refine Eq.trans ?_ (UInt32.add_zero _).symm
    simp only [handle]
    split
    · rfl
    · exact tick_serve ..
  | tick period =>
    cases hout : e.outgoing with
    | nil =>
      simp only [elapsed, hout, if_true, Nat.add_zero, UInt32.ofNat_toNat, handle]
      rfl
    | cons d outgoing =>
      simp only [elapsed, hout, reduceCtorEq, if_false, handle]
      exact (UInt32.add_zero _).symm
  | deliver =>
    refine Eq.trans ?_ (UInt32.add_zero _).symm
    simp only [handle]
    split <;> rfl

theorem tick_run (e : Ensemble) (events : List EnsembleEvent) :
    (e.run events).clock.tick = e.clock.tick + .ofNat (e.elapsed events) := by
  induction events generalizing e with
  | nil => exact (UInt32.add_zero _).symm
  | cons event events ih =>
    rw [elapsed_cons, UInt32.ofNat_add, ← UInt32.add_assoc, ← tick_handle]
    exact ih (e.handle event)

/-! ## What the clock grants -/

theorem scheduled_of_moved {e' : Ensemble} (hmoved : e.Moved e')
    (h : .scheduled number id ∈ e'.history) : .scheduled number id ∈ e.history := by
  cases hmoved with
  | goOn k x wakes news semaphores hx hnews =>
    exact (List.mem_append.1 h).resolve_left fun hnew => by cases hnews _ hnew
  | begin k task => exact h

theorem scheduled_handle {event : EnsembleEvent} (h : .scheduled number id ∈ (e.handle event).history) :
    .scheduled number id ∈ e.history ∨
      ∃ k, event = .serve k ∧ (e.handle event).history = .scheduled number id :: e.history := by
  cases event with
  | take k i ms => exact Or.inl (scheduled_of_moved (moved_begin ..) h)
  | sleep k client ms => exact Or.inl (scheduled_of_moved (moved_begin ..) h)
  | give i => exact Or.inl (scheduled_of_moved (moved_give i) h)
  | step k => exact Or.inl (scheduled_of_moved (moved_step k) h)
  | serve k =>
    cases hk : e.threads k with
    | none =>
      simp only [handle, hk] at h
      exact Or.inl h
    | some call =>
      simp only [handle, hk] at h ⊢
      rcases serve_cases e k call with heq | ⟨badge, request, -, -, -, heq⟩
      · rw [heq] at h
        exact Or.inl h
      · rw [heq] at h ⊢
        rcases List.mem_append.1 h with hnew | hold
        · refine Or.inr ⟨k, rfl, ?_⟩
          show replyNews call.number (e.clock.handle badge request).1 ++ e.history = _
          generalize (e.clock.handle badge request).1 = reply at hnew ⊢
          cases reply with
          | scheduled id' insertedAt =>
            cases List.mem_singleton.1 hnew
            rfl
          | time | cancelled | failed => cases hnew
        · exact Or.inl hold
  | tick period =>
    simp only [handle] at h
    split at h <;> exact Or.inl h
  | deliver =>
    simp only [handle] at h
    split at h
    · exact Or.inl h
    · rcases List.mem_cons.1 h with hnew | hold
      · cases hnew
      · exact Or.inl hold

theorem granted_serve (hsound : e.Sound)
    (hn : granted (e.handle (.serve k)).history ≤ Schedule.maxGranted)
    (h : (e.handle (.serve k)).history = .scheduled number id :: e.history) :
    ∃ call badge x, e.threads k = some call ∧ call.number = number ∧
      e.request? k call = some (badge, .setTimeout false x.period k) ∧ x.id = id ∧
      x.periodic = false ∧ x.nextFire = e.clock.tick + x.period ∧
      (e.handle (.serve k)).clock.schedule.pending = e.clock.schedule.pending ++ [x] := by
  cases hk : e.threads k with
  | none =>
    simp only [handle, hk] at h
    exact absurd h.symm (List.cons_ne_self _ _)
  | some call =>
    simp only [handle, hk] at h hn ⊢
    rcases serve_cases e k call with heq | ⟨badge, request, hrequest, -, -, heq⟩
    · rw [heq] at h
      exact absurd h.symm (List.cons_ne_self _ _)
    rw [heq] at h hn ⊢
    have hnews : replyNews call.number (e.clock.handle badge request).1 = [.scheduled number id] :=
      List.append_cancel_right h
    have hlt : granted e.history < Schedule.maxGranted := by
      have hcount : granted (replyNews call.number (e.clock.handle badge request).1 ++ e.history) ≤ _ :=
        hn
      rw [hnews, granted_append] at hcount
      have hone : granted [.scheduled number id] = 1 := rfl
      omega
    rcases ClockState.handle_cases hsound.lockstep badge request with ⟨reply, hhandle, hnone, -⟩ |
      ⟨id', schedule, hhandle, -⟩ | ⟨id', periodic, period, wake, schedule, hhandle, rfl, hgrant⟩
    · rw [hhandle] at hnews
      cases reply with
      | scheduled id' tick => exact absurd rfl (hnone id' tick)
      | time | cancelled | failed => cases hnews
    · rw [hhandle] at hnews
      cases hnews
    · rw [hhandle] at hnews ⊢
      cases hnews
      rcases request?_cases hrequest with ⟨-, length, hlength⟩ | ⟨i, ms, id', wake, -, hcancel⟩
      · cases hlength
        exact ⟨call, badge, _, rfl, rfl, hrequest, rfl, rfl, rfl, (hgrant hlt).2.2⟩
      · cases hcancel

/-- Every timeout that the history tells was scheduled for a call was granted to it in the run, or
before. -/
theorem exists_grantsTo (hsound : e.Sound) (events : List EnsembleEvent)
    (hn : granted (e.run events).history ≤ Schedule.maxGranted)
    (h : .scheduled number id ∈ (e.run events).history) :
    .scheduled number id ∈ e.history ∨ ∃ time x, e.GrantsTo events number time x ∧ x.id = id := by
  induction events generalizing e with
  | nil => exact Or.inl h
  | cons event events ih =>
    have hlater := Nat.le_trans (granted_mono (suffix_run (e.handle event) events)) hn
    rcases ih (sound_handle hsound event hlater) hn h with hold | ⟨time, x, hgrants, hid⟩
    · rcases scheduled_handle hold with hold | ⟨k, rfl, hhistory⟩
      · exact Or.inl hold
      · obtain ⟨call, badge, x, -, -, -, rfl, -, -, hpending⟩ := granted_serve hsound hlater hhistory
        refine Or.inr ⟨0, x, ⟨[], k, events, rfl, rfl, hhistory, ?_⟩, rfl⟩
        exact hpending ▸ List.mem_append_right _ (List.mem_singleton_self x)
    · obtain ⟨before, k, after, rfl, rfl, hhistory, hx⟩ := hgrants
      refine Or.inr ⟨_, x, ⟨event :: before, k, after, rfl, rfl, hhistory, hx⟩, hid⟩

theorem request?_of_takes (htakes : call.task.TakesFor timeoutMs) {badge : Badge} {periodic : Bool}
    {length : Tick} {wake : NotificationId}
    (hrequest : e.request? k call = some (badge, .setTimeout periodic length wake)) :
    length = timeoutMs.toInt.toNat.toUInt32 := by
  obtain ⟨i, p, htask⟩ := htakes
  simp only [request?, htask] at hrequest
  split at hrequest
  · rename_i client request hclock htake
    obtain ⟨-, rfl⟩ := Prod.mk.inj (Option.some.inj hrequest)
    cases p with
    | scheduling slot =>
      cases htake
      rfl
    | entering | waiting | woken | cancelling => cases htake
  · cases hrequest

theorem toNat_length (timeoutMs : Int32) :
    timeoutMs.toInt.toNat.toUInt32.toNat = timeoutMs.toInt.toNat := by
  have hlt := timeoutMs.toInt_lt
  exact UInt32.toNat_ofNat_of_lt' (by rw [UInt32.size]; omega)

/-- A timeout of a take is due its whole length after it was granted. -/
theorem GrantsTo.due (hsound : e.Sound) (htaking : e.Taking number timeoutMs)
    {events : List EnsembleEvent} (hn : granted (e.run events).history ≤ Schedule.maxGranted)
    (h : e.GrantsTo events number time x) :
    x.periodic = false ∧ x.period.toNat = timeoutMs.toInt.toNat ∧
      x.nextFire = e.clock.tick + .ofNat (time + timeoutMs.toInt.toNat) := by
  obtain ⟨before, k, after, rfl, rfl, hhistory, hx⟩ := h
  have hserved : granted ((e.run before).handle (.serve k)).history ≤ Schedule.maxGranted := by
    refine Nat.le_trans (granted_mono ?_) hn
    rw [run_append]
    exact suffix_run _ after
  have hearlier := sound_run hsound before
    (Nat.le_trans (granted_mono (suffix_handle _ (.serve k))) hserved)
  obtain ⟨call, badge, y, hk, hnumber, hrequest, hid, hperiodic, hnext, hpending⟩ :=
    granted_serve hearlier hserved hhistory
  have hlength := request?_of_takes ((htaking.run before).takes k call hk hnumber) hrequest
  -- no other pending timeout has its name
  have hnodup := (sound_handle hearlier (.serve k) hserved).lockstep.ids_nodup
  obtain rfl := List.inj_on_of_nodup_map hnodup hx
    (hpending ▸ List.mem_append_right _ (List.mem_singleton_self y)) hid.symm
  refine ⟨hperiodic, by rw [hlength, toNat_length], ?_⟩
  rw [hnext, hlength, tick_run, UInt32.ofNat_add, UInt32.add_assoc]

/-- The timeouts of a take are each due its length after they were granted, and it waits for no other.
So they are due in time after the first just if no time passed between the first and the others. -/
theorem bounded_take_iff {capacity : Nat} {schedule : Schedule}
    (hmade : Schedule.ofCapacity capacity = .ok schedule) (threads : Nat) (initial : Nat → Bool)
    (maxWaiters : Nat → Nat) (clocks : Nat → Option ClockClient) (tick : Tick)
    (before : List EnsembleEvent) (k : NotificationId) (i : Nat) (timeoutMs : Int32)
    (events : List EnsembleEvent) :
    let e := (start threads initial maxWaiters clocks { tick, schedule }).run before
    let called := e.handle (.take k i timeoutMs)
    e.threads k = none → granted (called.run events).history ≤ Schedule.maxGranted →
    (∀ time x, called.GrantsTo events e.calls time x →
      x.periodic = false ∧ x.period.toNat = timeoutMs.toInt.toNat ∧
        x.nextFire = called.clock.tick + .ofNat (time + timeoutMs.toInt.toNat)) ∧
    (∀ j call id, (called.run events).threads j = some call → call.number = e.calls →
      call.named? = some id → ∃ time x, called.GrantsTo events e.calls time x ∧ x.id = id) ∧
    (called.BoundsCall events e.calls timeoutMs.toInt.toNat ↔ ∀ time x time' x',
      called.GrantsTo events e.calls time x → called.GrantsTo events e.calls time' x' →
        time = time') := by
  intro e called hk hn
  obtain ⟨hlock, hempty⟩ := Schedule.lockstep_of_ofCapacity hmade
  have hcalled : granted called.history ≤ Schedule.maxGranted :=
    Nat.le_trans (granted_mono (suffix_run called events)) hn
  have hsound : called.Sound := by
    have hstart := sound_start hlock hempty threads initial maxWaiters clocks tick
    have he : e.Sound :=
      sound_run hstart before (Nat.le_trans (granted_mono (suffix_handle e _)) hcalled)
    exact sound_handle he _ hcalled
  have hnumbered : e.Numbered := numbered_run (numbered_start ..) before
  have htaking : called.Taking e.calls timeoutMs := taking_take hnumbered hk i timeoutMs
  have hdue : ∀ time x, called.GrantsTo events e.calls time x → _ :=
    fun time x hgrants => hgrants.due hsound htaking hn
  refine ⟨hdue, fun j call id hj hnumber hnamed => ?_, fun hbounds => ?_, fun hsame => ?_⟩
  · have howned := ((sound_run hsound events hn).fits j call hj).owned id hnamed
    rw [hnumber] at howned
    refine (exists_grantsTo hsound events hn howned).resolve_left fun hbefore => ?_
    -- the call had not begun
    have hold : .scheduled e.calls id ∈ e.history := scheduled_of_moved (moved_begin ..) hbefore
    exact Nat.lt_irrefl _ (hnumbered.scheduled e.calls id hold)
  · intro time x time' x' hgrants hgrants'
    have hsome : ∃ time x, called.GrantsTo events e.calls time x := ⟨time, x, hgrants⟩
    classical
    obtain ⟨first, hfirst⟩ := Nat.find_spec hsome
    have hleast : ∀ t y, called.GrantsTo events e.calls t y → Nat.find hsome ≤ t :=
      fun t y hy => Nat.find_min' hsome ⟨y, hy⟩
    have heq : ∀ t y, called.GrantsTo events e.calls t y → t = Nat.find hsome := by
      intro t y hy
      have hle := hbounds _ first hfirst hleast t y hy
      rw [(hdue t y hy).2.1] at hle
      exact Nat.le_antisymm (Nat.le_of_add_le_add_right hle) (hleast t y hy)
    rw [heq time x hgrants, heq time' x' hgrants']
  · intro first x hfirst hleast time y hy
    exact Nat.add_le_add (Nat.le_of_eq (hsame time y first x hy hfirst))
      (Nat.le_of_eq (hdue time y hy).2.1)

/-- A take that loses a race after half its timeout waits for another whole one. -/
theorem unbounded_take_lost_race :
    ∃ s₀, Schedule.ofCapacity 2 = .ok s₀ ∧
      let called := (start 2 (fun _ => false) (fun _ => 2) (fun _ => some ⟨0⟩)
        { tick := 0, schedule := s₀ }).handle (.take 0 0 100)
      let events : List EnsembleEvent :=
        [.step 0, .serve 0, .step 0, .tick 50, .give 0, .take 1 0 0, .step 1, .step 0, .step 0,
          .serve 0, .step 0, .serve 0, .step 0]
      ¬ called.BoundsCall events 0 100 ∧ ∃ call id, (called.run events).threads 0 = some call ∧
        call.number = 0 ∧ call.timer? = some id ∧
          ((called.run events).clock.schedule.get? id).map (·.nextFire) = some 150 := by
  refine ⟨_, rfl, fun hbounds => ?_, ⟨0, .take 0 100 (.waiting 0 (some ⟨.ofNat 2, by decide⟩)), none⟩,
    ⟨.ofNat 2, by decide⟩, rfl, rfl, rfl, rfl⟩
  have hle := hbounds 0 ⟨⟨.ofNat 1, by decide⟩, 0, false, 100, 100⟩
    ⟨[.step 0], 0, [.step 0, .tick 50, .give 0, .take 1 0 0, .step 1, .step 0, .step 0, .serve 0,
      .step 0, .serve 0, .step 0], rfl, rfl, rfl, List.mem_singleton_self _⟩
    (fun _ _ _ => Nat.zero_le _) 50 ⟨⟨.ofNat 2, by decide⟩, 0, false, 100, 150⟩
    ⟨[.step 0, .serve 0, .step 0, .tick 50, .give 0, .take 1 0 0, .step 1, .step 0, .step 0,
      .serve 0, .step 0], 0, [.step 0], rfl, rfl, rfl, List.mem_singleton_self _⟩
  exact absurd hle (by decide)

/-- After a lost race the take waits for the second timeout that it was granted. -/
theorem bounded_take_iff_second :
    ∃ s₀, Schedule.ofCapacity 2 = .ok s₀ ∧
      let e := (start 2 (fun _ => false) (fun _ => 2) (fun _ => some ⟨0⟩)
        { tick := 0, schedule := s₀ }).run []
      let called := e.handle (.take 0 0 100)
      let events : List EnsembleEvent :=
        [.step 0, .serve 0, .step 0, .tick 50, .give 0, .take 1 0 0, .step 1, .step 0, .step 0,
          .serve 0, .step 0, .serve 0, .step 0]
      e.threads 0 = none ∧ granted (called.run events).history ≤ Schedule.maxGranted ∧
        (∀ time x, called.GrantsTo events 0 time x → x.nextFire = 0 + .ofNat (time + 100)) ∧
        ∃ time x, called.GrantsTo events 0 time x ∧ x.id = ⟨.ofNat 2, by decide⟩ := by
  refine ⟨_, rfl, rfl, by decide, ?_⟩
  obtain ⟨hdue, hwaits, -⟩ := bounded_take_iff (show Schedule.ofCapacity 2 = .ok _ from rfl) 2
    (fun _ => false) (fun _ => 2) (fun _ => some ⟨0⟩) 0 [] 0 0 100
    [.step 0, .serve 0, .step 0, .tick 50, .give 0, .take 1 0 0, .step 1, .step 0, .step 0,
      .serve 0, .step 0, .serve 0, .step 0] rfl (by decide)
  exact ⟨fun time x hgrants => (hdue time x hgrants).2.2, hwaits 0
    ⟨0, .take 0 100 (.waiting 0 (some ⟨.ofNat 2, by decide⟩)), none⟩ _ rfl rfl rfl⟩

end Ensemble

end Osal
