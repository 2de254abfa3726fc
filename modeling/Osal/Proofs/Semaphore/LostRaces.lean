import Osal.Proofs.Semaphore.Rounds

/-!
# A take that loses every race

A give releases a thread that waits, and another thread takes the semaphore first. The thread waits on,
and its new timeout is due later by the time that passed meanwhile. `exists_late_grant`: it can lose any
number of races, so no multiple of its timeout bounds a take.
-/

namespace Osal

namespace Ensemble

/-- Thread `0` is inside its first call, a take of semaphore `0`, for which thread `1` competes. -/
structure Contest (e : Ensemble) (s : Semaphore) (timeoutMs : Int32) (point : Take.Point)
    (reply : Option Reply) : Prop where
  semaphore : e.semaphores 0 = s
  waiter : e.threads 0 = some { number := 0, task := .take 0 timeoutMs point, reply }
  rival : e.threads 1 = none
  wakes : e.wakes = .ofCount 2
  idle : e.outgoing = []

/-- The timeouts that are pending, on a clock that has room for one. -/
structure Stock (e : Ensemble) (pending : List TimeoutEntry) : Prop where
  lockstep : e.clock.schedule.Lockstep (granted e.history)
  room : 0 < e.clock.schedule.capacity
  pending : e.clock.schedule.pending = pending

/-- The semaphore while nobody is inside a critical section. -/
def openFor (waiter : Option NotificationId) : Semaphore :=
  { available := false, slots := [waiter], clock := some ⟨0⟩ }

/-- The semaphore while the thread is inside a critical section. -/
def lockedFor (waiter : Option NotificationId) : Semaphore :=
  { available := false, slots := [waiter], clock := some ⟨0⟩, locked := true }

/-- The thread has parked, and asks for a timeout. -/
structure Asks (e : Ensemble) (timeoutMs : Int32) : Prop where
  contest : e.Contest (lockedFor (some 0)) timeoutMs (.scheduling 0) none
  stock : e.Stock []

/-- The thread gets its timeout and waits. -/
def wait : List EnsembleEvent := [.serve 0, .step 0]

/-- The thread is released, but the other one takes the semaphore. -/
def lose : List EnsembleEvent := [.give 0, .take 1 0 0, .step 1, .step 0, .step 0]

/-- The timeout is cancelled, and the thread parks again some time later. -/
def park (period : Tick) : List EnsembleEvent := [.serve 0, .tick period, .step 0]

/-- One race from the request for a timeout to the next. -/
def race (period : Tick) : List EnsembleEvent := wait ++ (lose ++ park period)

def races (period : Tick) : Nat → List EnsembleEvent
  | 0 => []
  | n + 1 => race period ++ races period n

/-- A take that has just been called, on a semaphore without a unit. -/
def called (timeoutMs : Int32) (clock : ClockState) : Ensemble :=
  (start 2 (fun _ => false) (fun _ => 1) (fun _ => some ⟨0⟩) clock).handle (.take 0 0 timeoutMs)

variable {e : Ensemble} {timeoutMs : Int32} {id : TimeoutId} {period : Tick} {x : TimeoutEntry}

theorem asks_called {s : Schedule} (hlock : s.Lockstep 0) (hroom : 0 < s.capacity)
    (hempty : s.pending = []) (hms : 0 < timeoutMs) (tick : Tick) :
    ((called timeoutMs ⟨tick, s⟩).run [.step 0]).Asks timeoutMs ∧
      granted ((called timeoutMs ⟨tick, s⟩).run [.step 0]).history = 0 := by
  have hne : timeoutMs ≠ 0 := by
    rintro rfl
    exact absurd hms (by decide)
  rw [called]
  generalize hstart : start 2 (fun _ => false) (fun _ => 1) (fun _ => some ⟨0⟩) ⟨tick, s⟩ = e
  have hsemaphore : e.semaphores 0 = openFor none := hstart ▸ rfl
  have hthreads : e.threads = fun _ => none := hstart ▸ rfl
  have hcalled : (e.handle (.take 0 0 timeoutMs)).run [.step 0] = { e with
      semaphores := Function.update e.semaphores 0 (lockedFor (some 0))
      threads := Function.update e.threads 0 (some ⟨e.calls, .take 0 timeoutMs (.scheduling 0), none⟩)
      calls := e.calls + 1 } := by
    simp [run, handle, begin, put, hthreads, stepTake, Take.Point.isInside, hsemaphore, openFor, lockedFor,
      Take.step, Take.enter, Take.compete, Semaphore.freeSlot?, Semaphore.setSlot, Take.isBounded, hne,
      hms, advanceTake, Take.place, tookNews]
  rw [hcalled]
  subst hstart
  exact ⟨⟨⟨by simp, by simp [start], by simp [start], rfl, rfl⟩, hlock, hroom, hempty⟩, rfl⟩

theorem Asks.run_wait (h : e.Asks timeoutMs) (hn : granted e.history < Schedule.maxGranted) :
    ∃ x, (e.handle (.serve 0)).history = .scheduled 0 x.id :: e.history ∧
      (e.handle (.serve 0)).clock.schedule.pending = [x] ∧
      (e.run wait).Contest (openFor (some 0)) timeoutMs (.waiting 0 (some x.id)) none ∧
      (e.run wait).Stock [x] ∧ granted (e.run wait).history = granted e.history + 1 := by
  obtain ⟨⟨hsemaphore, hwaiter, hrival, hwakes, hidle⟩, hlock, hroom, hpending⟩ := h
  have hspace : e.clock.schedule.size < e.clock.schedule.capacity := by
    rw [hlock.size_eq, hpending]
    exact hroom
  have hrequest : ∃ length, ({ timeoutMs, wait := 0 } : Take).request? (.scheduling 0) =
      some (.setTimeout false length 0) := ⟨_, rfl⟩
  obtain ⟨length, hrequest⟩ := hrequest
  obtain ⟨s, hinsert, hlock', hcapacity, hpending', -⟩ :=
    Schedule.insert_of_lt hlock hn hspace e.clock.tick 0 false length 0
  rw [hpending, List.nil_append] at hpending'
  obtain ⟨x, hx, hid⟩ : ∃ x : TimeoutEntry, s.pending = [x] ∧ x.id = e.clock.schedule.nextId :=
    ⟨_, hpending', rfl⟩
  have hserve : e.handle (.serve 0) = { e with
      clock := { e.clock with schedule := s }
      threads := Function.update e.threads 0 (some ⟨0, .take 0 timeoutMs (.scheduling 0),
        some (.scheduled e.clock.schedule.nextId e.clock.tick)⟩)
      history := .scheduled 0 e.clock.schedule.nextId :: e.history } := by
    simp [handle, hwaiter, serve, request?, hsemaphore, lockedFor, hrequest, hidle,
      ClockState.handle, hinsert, put, replyNews]
  have hwait : e.run wait = { e with
      semaphores := Function.update e.semaphores 0 (openFor (some 0))
      clock := { e.clock with schedule := s }
      threads := Function.update e.threads 0
        (some ⟨0, .take 0 timeoutMs (.waiting 0 (some e.clock.schedule.nextId)), none⟩)
      history := .scheduled 0 e.clock.schedule.nextId :: e.history } := by
    show (e.handle (.serve 0)).handle (.step 0) = _
    rw [hserve]
    simp [handle, stepTake, Take.Point.isInside, Take.answered, hsemaphore, lockedFor, openFor,
      advanceTake, Take.place, tookNews, put]
  have hgranted : granted (.scheduled 0 e.clock.schedule.nextId :: e.history) =
      granted e.history + 1 := (granted_append [_] _).trans (Nat.add_comm ..)
  refine ⟨x, by rw [hserve, hid], by rw [hserve]; exact hx, ?_, ?_, ?_⟩
  · rw [hwait, hid]
    exact ⟨by simp, by simp, by simpa using hrival, hwakes, hidle⟩
  · rw [hwait]
    exact ⟨hgranted ▸ hlock', hcapacity ▸ hroom, hx⟩
  · rw [hwait]
    exact hgranted

theorem Contest.run_lose (h : e.Contest (openFor (some 0)) timeoutMs (.waiting 0 (some id)) none) :
    (e.run lose).Contest (lockedFor none) timeoutMs (.cancelling id .released) none ∧
      (e.run lose).clock = e.clock ∧ granted (e.run lose).history = granted e.history := by
  obtain ⟨hsemaphore, hwaiter, hrival, hwakes, hidle⟩ := h
  have hpoll : ((Wakes.ofCount 2).signal 0 .released).2.poll 0 = (some .released, .ofCount 2) := rfl
  have hlose : e.run lose = { e with
      semaphores := Function.update e.semaphores 0 (lockedFor none)
      threads := Function.update (Function.update e.threads 1 none) 0
        (some ⟨0, .take 0 timeoutMs (.cancelling id .released), none⟩)
      calls := e.calls + 1, history := .took e.calls 0 (.ok ()) :: e.history } := by
    simp [lose, run, handle, begin, put, hsemaphore, hwaiter, hrival, hwakes, openFor,
      lockedFor, Semaphore.give, Semaphore.parked, hpoll, stepTake, advanceTake, Take.step,
      Take.enter, Take.compete, Take.place, Take.Point.isInside, tookNews, Semaphore.setSlot]
  rw [hlose]
  exact ⟨⟨by simp, by simp, by simp, hwakes, hidle⟩, rfl, rfl⟩

theorem Contest.run_park (h : e.Contest (lockedFor none) timeoutMs (.cancelling x.id .released) none)
    (hstock : e.Stock [x]) (hms : 0 < timeoutMs) (period : Tick) :
    (e.run (park period)).Asks timeoutMs ∧ e.elapsed (park period) = period.toNat ∧
      granted (e.run (park period)).history = granted e.history := by
  obtain ⟨hsemaphore, hwaiter, hrival, hwakes, hidle⟩ := h
  obtain ⟨hlock, hroom, hpending⟩ := hstock
  -- the clock cancels the timeout, so that the tick finds none
  have hmem : ∃ y ∈ e.clock.schedule.pending, y.id = x.id :=
    ⟨x, hpending ▸ List.mem_singleton_self x, rfl⟩
  obtain ⟨s, hcancel, hlock', hcapacity, hpending', -⟩ := Schedule.cancel_of_mem hlock hmem
  have hempty : s.pending = [] := by
    rw [hpending', hpending]
    simp
  obtain ⟨s', hfire, hlock'', hcapacity', hpending'', -⟩ :=
    Schedule.fire_spec hlock' (.ofCount 2) (e.clock.tick + period)
  rw [hempty] at hpending''
  have hnone : s.deliveries (e.clock.tick + period) = [] := by
    rw [Schedule.deliveries, Schedule.due, hempty]
    rfl
  have hcancelled : e.handle (.serve 0) = { e with
      clock := { e.clock with schedule := s }
      threads := Function.update e.threads 0
        (some ⟨0, .take 0 timeoutMs (.cancelling x.id .released), some .cancelled⟩) } := by
    simp [handle, hwaiter, serve, request?, hsemaphore, lockedFor, Take.request?, hidle,
      ClockState.handle, hcancel, put, replyNews]
  have hticked : (e.handle (.serve 0)).handle (.tick period) = { e with
      clock := { tick := e.clock.tick + period, schedule := s' }
      threads := Function.update e.threads 0
        (some ⟨0, .take 0 timeoutMs (.cancelling x.id .released), some .cancelled⟩) } := by
    rw [hcancelled]
    simp [handle, hidle, hwakes, ClockState.advance, ClockState.fireDue, hfire, hnone]
  have hgone : ClockClient.goneOf x.id (.ok Reply.cancelled.toMessage) = .ok () := rfl
  have hpoll : ((Wakes.ofCount 2).poll 0).2 = .ofCount 2 := rfl
  have hparked : e.run (park period) = { e with
      semaphores := Function.update e.semaphores 0 (lockedFor (some 0))
      clock := { tick := e.clock.tick + period, schedule := s' }
      threads := Function.update e.threads 0 (some ⟨0, .take 0 timeoutMs (.scheduling 0), none⟩) } := by
    show ((e.handle (.serve 0)).handle (.tick period)).handle (.step 0) = _
    rw [hticked]
    simp [handle, stepTake, Take.Point.isInside, Take.answered, hgone, Take.settle, hwakes, hpoll,
      hsemaphore, lockedFor, Take.compete, Semaphore.freeSlot?, Semaphore.setSlot, Take.isBounded,
      hms, advanceTake, Take.place, tookNews, put]
  refine ⟨⟨?_, ?_⟩, ?_, ?_⟩
  · rw [hparked]
    exact ⟨by simp, by simp, by simpa using hrival, hwakes, hidle⟩
  · rw [hparked]
    exact ⟨hlock'', by rw [hcapacity', hcapacity]; exact hroom, hpending''⟩
  · rw [park, elapsed_cons, hcancelled]
    simp [elapsed, hidle]
  · rw [hparked]

theorem Asks.run_race (h : e.Asks timeoutMs) (hn : granted e.history < Schedule.maxGranted)
    (hms : 0 < timeoutMs) (period : Tick) :
    (e.run (race period)).Asks timeoutMs ∧ e.elapsed (race period) = period.toNat ∧
      granted (e.run (race period)).history = granted e.history + 1 := by
  obtain ⟨x, -, -, hcontest, hstock, hgranted⟩ := h.run_wait hn
  obtain ⟨hlost, hclock, hkept⟩ := hcontest.run_lose
  have hstock' : ((e.run wait).run lose).Stock [x] := by
    refine ⟨?_, ?_, ?_⟩
    · rw [hclock, hkept]
      exact hstock.lockstep
    · rw [hclock]
      exact hstock.room
    · rw [hclock]
      exact hstock.pending
  obtain ⟨hasks, hpassed, hparked⟩ := hlost.run_park hstock' hms period
  have hrun : e.run (race period) = ((e.run wait).run lose).run (park period) := by
    simp [race]
  have hwait : e.elapsed wait = 0 := by simp [wait, elapsed]
  have hlose : (e.run wait).elapsed lose = 0 := by simp [lose, elapsed]
  refine ⟨hrun ▸ hasks, ?_, ?_⟩
  · simp [race, hwait, hlose, hpassed]
  · rw [hrun, hparked, hkept, hgranted]

theorem Asks.run_races (h : e.Asks timeoutMs) (hms : 0 < timeoutMs) (period : Tick) (n : Nat)
    (hn : granted e.history + n ≤ Schedule.maxGranted) :
    (e.run (races period n)).Asks timeoutMs ∧ e.elapsed (races period n) = n * period.toNat ∧
      granted (e.run (races period n)).history = granted e.history + n := by
  induction n generalizing e with
  | zero => exact ⟨h, (Nat.zero_mul _).symm, rfl⟩
  | succ n ih =>
    obtain ⟨hasks, hpassed, hgranted⟩ := h.run_race (by omega) hms period
    obtain ⟨hasks', hpassed', hgranted'⟩ := ih hasks (by omega)
    rw [races, run_append, elapsed_append]
    refine ⟨hasks', ?_, by omega⟩
    rw [hpassed, hpassed', Nat.succ_mul]
    exact Nat.add_comm ..

theorem Asks.grantsTo {before : List EnsembleEvent} (h : (e.run before).Asks timeoutMs)
    (hn : granted (e.run before).history < Schedule.maxGranted) (after : List EnsembleEvent) :
    ∃ x, e.GrantsTo (before ++ (wait ++ after)) 0 (e.elapsed before) x ∧
      (e.run (before ++ wait)).threads 0 = some ⟨0, .take 0 timeoutMs (.waiting 0 (some x.id)), none⟩ := by
  obtain ⟨x, hhistory, hpending, hcontest, -, -⟩ := h.run_wait hn
  refine ⟨x, ⟨before, 0, .step 0 :: after, rfl, rfl, hhistory, ?_⟩, ?_⟩
  · exact hpending ▸ List.mem_singleton_self x
  · rw [run_append]
    exact hcontest.waiter

/-- A take can be released any number of times, with any time between, and wait on: it then waits for a
timeout that was granted all that time after its first one. -/
theorem exists_late_grant {capacity : Nat} (hcapacity : 0 < capacity) (tick : Tick)
    (hms : 0 < timeoutMs) (period : Tick) {n : Nat} (hn : n < Schedule.maxGranted) :
    ∃ s, Schedule.ofCapacity capacity = .ok s ∧
      let e := called timeoutMs ⟨tick, s⟩
      ∃ events x y, e.GrantsTo events 0 0 x ∧ e.GrantsTo events 0 (n * period.toNat) y ∧
        (e.run events).threads 0 = some ⟨0, .take 0 timeoutMs (.waiting 0 (some y.id)), none⟩ := by
  obtain ⟨s, hmade, hlock, hroom, hempty, -⟩ := Schedule.ofCapacity_spec hcapacity
  refine ⟨s, hmade, ?_⟩
  intro e
  obtain ⟨hasks, hnone⟩ := asks_called hlock (hroom ▸ hcapacity) hempty hms tick
  obtain ⟨hlast, hpassed, hgranted⟩ := hasks.run_races hms period n (by omega)
  have htime : e.elapsed ([.step 0] ++ races period n) = n * period.toNat := by
    rw [elapsed_append, hpassed]
    exact Nat.zero_add _
  rw [← run_append] at hlast hgranted
  obtain ⟨y, hy, hwaits⟩ := hlast.grantsTo (by omega) []
  rw [htime] at hy
  have hfirst : ∃ rest, races period n ++ wait = wait ++ rest := by
    cases n with
    | zero => exact ⟨[], rfl⟩
    | succ n => exact ⟨lose ++ park period ++ (races period n ++ wait), by simp [races, race]⟩
  obtain ⟨rest, hrest⟩ := hfirst
  obtain ⟨x, hx, -⟩ := hasks.grantsTo (by omega) rest
  refine ⟨[.step 0] ++ (races period n ++ wait), x, y, ?_, ?_, ?_⟩
  · rw [hrest]
    exact hx
  · rw [← List.append_assoc]
    exact hy
  · rw [← List.append_assoc]
    exact hwaits

end Ensemble

end Osal
