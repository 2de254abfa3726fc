import Osal.Proofs.Semaphore.Places

/-!
# No wakeup is lost

A crowd is a semaphore and any number of threads that take it, each waiting on the notification of
its own number. Around their steps anyone gives the semaphore, wakes of any kind reach the
notifications at any moment, and the clock answers whatever it likes. `no_lost_wakeup`: while the
semaphore is available, nobody waits on an empty notification.
-/

namespace Osal

/-- A semaphore, and the timeout and the point of each thread that is inside a take of it. -/
structure Crowd where
  semaphore : Semaphore
  wakes : Wakes
  threads : NotificationId → Option (Int32 × Take.Point) := fun _ => none

namespace Crowd

/-- What can happen to a crowd. An event that is impossible at its moment changes nothing. -/
inductive Event where
  | take (thread : NotificationId) (timeoutMs : Int32)
  /-- The thread takes a step, unless it is blocked. -/
  | step (thread : NotificationId)
  /-- The clock answers the request that the thread awaits. -/
  | answer (thread : NotificationId) (result : CallResult NotificationId)
  | give
  /-- A timer or anyone else signals a notification. -/
  | signal (thread : NotificationId) (wake : Wakeup)

def ofSize (threads : Nat) (initial : Bool) (maxWaiters : Nat) (clock : Option ClockClient) :
    Crowd :=
  { semaphore := .ofSize initial maxWaiters clock, wakes := .ofCount threads }

def point? (c : Crowd) (k : NotificationId) : Option Take.Point := (c.threads k).map (·.2)

def advance (c : Crowd) (k : NotificationId) (timeoutMs : Int32)
    (next : (Semaphore × Wakes) × Take.Turn) : Crowd :=
  { semaphore := next.1.1, wakes := next.1.2,
    threads := Function.update c.threads k ((Take.place next.2).map fun p => (timeoutMs, p)) }

def handle (c : Crowd) : Event → Crowd
  | .take k timeoutMs =>
    match c.threads k with
    | none =>
      if k < c.wakes.size then
        { c with threads := Function.update c.threads k (some (timeoutMs, .entering)) }
      else c
    | some _ => c
  | .step k =>
    match c.threads k with
    | none => c
    | some (timeoutMs, p) =>
      match ({ timeoutMs, wait := k } : Take).step (c.semaphore, c.wakes) p with
      | none => c
      | some next => c.advance k timeoutMs next
  | .answer k result =>
    match c.threads k with
    | none => c
    | some (timeoutMs, p) =>
      if p.isInside then
        c.advance k timeoutMs
          (({ timeoutMs, wait := k } : Take).answered c.semaphore c.wakes result p)
      else c
  | .give =>
    match c.semaphore.give c.wakes with
    | none => c
    | some (semaphore, wakes) => { c with semaphore, wakes }
  | .signal k wake => { c with wakes := (c.wakes.signal k wake).2 }

def run (c : Crowd) (events : List Event) : Crowd := events.foldl handle c

/-! ## The invariant -/

/-- The semaphore is as its threads say, and while it is available all who wait have a wake. -/
structure Watchful (c : Crowd) : Prop where
  orderly : c.semaphore.Orderly c.point?
  live : ∀ k < c.wakes.size, c.wakes.IsLive k
  inRange : ∀ k, (c.point? k).isSome → k < c.wakes.size
  alert : c.semaphore.available = true → ∀ k slot timeout,
    c.point? k = some (.waiting slot timeout) → c.wakes.isPending k = true

variable {c : Crowd} {k : NotificationId}

theorem watchful_ofSize (threads : Nat) (initial : Bool) (maxWaiters : Nat)
    (clock : Option ClockClient) : (ofSize threads initial maxWaiters clock).Watchful := by
  refine ⟨Semaphore.orderly_ofSize .., fun k hk => ?_, fun k hk => ?_, fun _ k slot timeout hk => ?_⟩
  · refine Wakes.isLive_ofCount ?_
    simpa [ofSize, Wakes.ofCount, Wakes.size] using hk
  · cases hk
  · cases hk

theorem point?_update (threads : NotificationId → Option (Int32 × Take.Point)) (timeoutMs : Int32)
    (p : Option Take.Point) (s : Semaphore) (w : Wakes) :
    point? ⟨s, w, Function.update threads k (p.map fun p => (timeoutMs, p))⟩ =
      Function.update (point? ⟨s, w, threads⟩) k p := by
  funext j
  simp only [point?]
  by_cases hj : j = k
  · rw [hj, Function.update_self, Function.update_self]
    cases p <;> rfl
  · rw [Function.update_of_ne hj, Function.update_of_ne hj]
    rfl

theorem point?_of_threads {timeoutMs : Int32} {p : Take.Point} (hk : c.threads k = some (timeoutMs, p)) :
    c.point? k = some p := by
  rw [point?, hk]
  rfl

@[simp] theorem point?_advance (c : Crowd) (k : NotificationId) (timeoutMs : Int32)
    (next : (Semaphore × Wakes) × Take.Turn) :
    (c.advance k timeoutMs next).point? = Function.update c.point? k (Take.place next.2) :=
  point?_update ..

/-- What a thread has to show that advances: it takes no wake but its own, and it makes nothing
available, nor does it come to wait while something is. -/
theorem Watchful.advance (h : c.Watchful) {timeoutMs : Int32} {p : Take.Point}
    (hk : c.threads k = some (timeoutMs, p)) {s' : Semaphore} {w' : Wakes} {turn : Take.Turn}
    (horderly : s'.Orderly (Function.update c.point? k (Take.place turn)))
    (hwakes : w' = c.wakes ∨ w' = (c.wakes.poll k).2)
    (havailable : s'.available = true →
      c.semaphore.available = true ∧ ∀ slot timeout, turn ≠ .goto (.waiting slot timeout)) :
    (c.advance k timeoutMs ((s', w'), turn)).Watchful := by
  have hpoint := point?_advance c k timeoutMs ((s', w'), turn)
  have hsize : w'.size = c.wakes.size := by
    rcases hwakes with rfl | rfl <;> simp
  have hrange : k < c.wakes.size := by
    apply h.inRange
    rw [point?, hk]
    rfl
  refine ⟨hpoint ▸ horderly, fun j hj => ?_, fun j hj => ?_, fun hs' j slot timeout hj => ?_⟩
  · have hlive := h.live j (hsize ▸ hj)
    rcases hwakes with rfl | rfl
    · exact hlive
    · simpa [Crowd.advance] using hlive
  · show j < w'.size
    rw [hsize]
    rw [hpoint] at hj
    by_cases hjk : j = k
    · rw [hjk]
      exact hrange
    · rw [Function.update_of_ne hjk] at hj
      exact h.inRange j hj
  · obtain ⟨hs, hturn⟩ := havailable hs'
    rw [hpoint] at hj
    by_cases hjk : j = k
    · rw [hjk, Function.update_self] at hj
      cases turn with
      | goto point => exact absurd (congrArg Next.goto (Option.some.inj hj)) (hturn slot timeout)
      | done outcome => cases hj
    -- the thread took no wake but its own
    · rw [Function.update_of_ne hjk] at hj
      have hpending := h.alert hs j slot timeout hj
      rcases hwakes with rfl | rfl
      · exact hpending
      · simpa [Crowd.advance, Wakes.isPending_eq, hjk] using hpending

end Crowd

/-! ## Steps of a take -/

namespace Take

variable {t : Take} {s : Semaphore} {w : Wakes} {point : Point}

@[simp] theorem available_compete (t : Take) (s : Semaphore) : (t.compete s).1.available = false := by
  rcases compete_cases t s with ⟨-, heq⟩ | ⟨h, -, heq⟩ | ⟨h, slot, -, heq⟩ | ⟨h, -, slot, -, heq⟩
  · rw [heq]
  · rw [heq]
    exact h
  · rw [heq]
    exact h
  · rw [heq]
    exact h

theorem available_of_settle (wake : Wakeup) (h : (t.settle s w wake).1.1.available = true) :
    s.available = true ∧ ∀ slot timeout, (t.settle s w wake).2 ≠ .goto (.waiting slot timeout) := by
  rcases settle_cases t s w wake with ⟨tick, -, heq⟩ | ⟨-, heq⟩
  · rw [heq] at h ⊢
    exact ⟨h, fun slot timeout hturn => by cases hturn⟩
  · simp [heq] at h

theorem available_of_step {s' : Semaphore} {w' : Wakes} {turn : Turn}
    (hstep : t.step (s, w) point = some ((s', w'), turn)) (h : s'.available = true) :
    s.available = true ∧ ∀ slot timeout, turn ≠ .goto (.waiting slot timeout) := by
  rcases step_cases hstep with ⟨rfl, -, -, hcompete | ⟨rfl, e, -, rfl⟩⟩ |
    ⟨slot, timeout, wake, rfl, -, rfl, -, rfl⟩ | ⟨slot, wake, rfl, -, hsettle⟩ |
    ⟨slot, id, wake, rfl, -, rfl, -, rfl⟩
  · have hunavailable := available_compete t s
    rw [hcompete, h] at hunavailable
    cases hunavailable
  · exact ⟨h, fun slot timeout hturn => by cases hturn⟩
  · exact ⟨h, fun slot timeout hturn => by cases hturn⟩
  · have hsettled := available_of_settle (t := t) (s := s.setSlot slot none) (w := w) wake
    rw [hsettle] at hsettled
    exact hsettled h
  · exact ⟨h, fun slot timeout hturn => by cases hturn⟩

theorem available_of_answered (hinside : point.isInside = true)
    (hsched : ∀ slot, point = .scheduling slot → s.available = false)
    (result : CallResult NotificationId)
    (h : (t.answered s w result point).1.1.available = true) :
    s.available = true ∧
      ∀ slot timeout, (t.answered s w result point).2 ≠ .goto (.waiting slot timeout) := by
  rcases answered_cases hinside t s w result with ⟨slot, timeout, rfl, -, hanswered⟩ |
    ⟨slot, e, rfl, -, hanswered⟩ | ⟨id, wake, rfl, hanswered⟩ | ⟨id, wake, e, rfl, -, hanswered⟩
  · rw [hanswered] at h
    have hunavailable := hsched slot rfl
    rw [show s.available = true from h] at hunavailable
    cases hunavailable
  · rw [hanswered] at h ⊢
    exact ⟨h, fun slot timeout hturn => by cases hturn⟩
  · rw [hanswered] at h ⊢
    exact available_of_settle _ h
  · rw [hanswered] at h ⊢
    exact ⟨h, fun slot timeout hturn => by cases hturn⟩

end Take

namespace Crowd

variable {c : Crowd} {k : NotificationId}

/-! ## Every event keeps watch -/

theorem watchful_take (h : c.Watchful) (timeoutMs : Int32) :
    (c.handle (.take k timeoutMs)).Watchful := by
  cases hk : c.threads k with
  | some inside =>
    simp only [handle, hk]
    exact h
  | none =>
    by_cases hrange : k < c.wakes.size
    · have hpoint : point? ⟨c.semaphore, c.wakes,
          Function.update c.threads k (some (timeoutMs, .entering))⟩ =
          Function.update c.point? k (some .entering) :=
        point?_update c.threads timeoutMs (some .entering) c.semaphore c.wakes
      simp only [handle, hk, if_pos hrange]
      refine ⟨?_, h.live, fun j hj => ?_, fun hs j slot timeout hj => ?_⟩
      · rw [hpoint]
        refine h.orderly.enter ?_
        rw [point?, hk]
        rfl
      · rw [hpoint] at hj
        by_cases hjk : j = k
        · rw [hjk]
          exact hrange
        · rw [Function.update_of_ne hjk] at hj
          exact h.inRange j hj
      · rw [hpoint] at hj
        by_cases hjk : j = k
        · rw [hjk, Function.update_self] at hj
          cases hj
        · rw [Function.update_of_ne hjk] at hj
          exact h.alert hs j slot timeout hj
    · simp only [handle, hk, if_neg hrange]
      exact h

theorem watchful_step (h : c.Watchful) : (c.handle (.step k)).Watchful := by
  cases hk : c.threads k with
  | none =>
    simp only [handle, hk]
    exact h
  | some inside =>
    obtain ⟨timeoutMs, p⟩ := inside
    have hp := point?_of_threads hk
    cases hstep : ({ timeoutMs, wait := k } : Take).step (c.semaphore, c.wakes) p with
    | none =>
      simp only [handle, hk, hstep]
      exact h
    | some next =>
      obtain ⟨⟨s', w'⟩, turn⟩ := next
      simp only [handle, hk, hstep]
      exact h.advance hk (Take.orderly_of_step h.orderly hp hstep) (Take.wakes_of_step hstep)
        (Take.available_of_step hstep)

theorem watchful_answer (h : c.Watchful) (result : CallResult NotificationId) :
    (c.handle (.answer k result)).Watchful := by
  cases hk : c.threads k with
  | none =>
    simp only [handle, hk]
    exact h
  | some inside =>
    obtain ⟨timeoutMs, p⟩ := inside
    have hp := point?_of_threads hk
    by_cases hinside : p.isInside = true
    · simp only [handle, hk, if_pos hinside]
      let t : Take := { timeoutMs, wait := k }
      refine h.advance hk (Take.orderly_of_answered (t := t) h.orderly hp hinside result)
        (Take.wakes_of_answered (t := t) hinside result)
        (Take.available_of_answered (t := t) hinside ?_ result)
      rintro slot rfl
      exact h.orderly.unavailable k slot hp
    · simp only [handle, hk, if_neg hinside]
      exact h

/-- A give makes the semaphore available only while no thread arranges to wait, and then it wakes all
who do. -/
theorem watchful_give (h : c.Watchful) : (c.handle .give).Watchful := by
  cases hlocked : c.semaphore.locked with
  | true =>
    simp only [handle, Semaphore.give_of_locked _ hlocked]
    exact h
  | false =>
    simp only [handle, Semaphore.give_of_unlocked _ hlocked]
    refine ⟨h.orderly.setAvailable true fun _ => hlocked, fun j hj => ?_, fun j hj => ?_,
      fun _ j slot timeout hj => ?_⟩
    · simpa using h.live j (by simpa using hj)
    · simpa using h.inRange j hj
    · have hslot := h.orderly.slot_of_place hj rfl
      have hmem : j ∈ c.semaphore.parked :=
        List.mem_filterMap.2 ⟨some j, List.mem_of_getElem? hslot, rfl⟩
      refine Wakes.isPending_signalAll_of_mem (h.live j (h.inRange j ?_)) hmem
      rw [show c.point? j = _ from hj]
      rfl

theorem watchful_signal (h : c.Watchful) (wake : Wakeup) :
    (c.handle (.signal k wake)).Watchful := by
  simp only [handle]
  refine ⟨h.orderly, fun j hj => ?_, fun j hj => ?_, fun hs j slot timeout hj => ?_⟩
  · simpa using h.live j (by simpa using hj)
  · simpa using h.inRange j hj
  · exact Wakes.isPending_signal (h.alert hs j slot timeout hj)

theorem watchful_handle (h : c.Watchful) (event : Event) : (c.handle event).Watchful := by
  cases event with
  | take k timeoutMs => exact watchful_take h timeoutMs
  | step k => exact watchful_step h
  | answer k result => exact watchful_answer h result
  | give => exact watchful_give h
  | signal k wake => exact watchful_signal h wake

theorem watchful_run (h : c.Watchful) (events : List Event) : (c.run events).Watchful := by
  unfold run
  induction events generalizing c with
  | nil => exact h
  | cons event events ih => exact ih (watchful_handle h event)

/-! ## No wakeup is lost -/

/-- While the semaphore is available, a thread in a wait slot has a wake pending or has received one
and is about to compete again; and whoever is blocked is in a wait slot. -/
theorem no_lost_wakeup (threads : Nat) (initial : Bool) (maxWaiters : Nat)
    (clock : Option ClockClient) (events : List Event) :
    let c := (ofSize threads initial maxWaiters clock).run events
    c.semaphore.available = true →
      (∀ slot k, c.semaphore.slots[slot]? = some (some k) →
        (∃ timeout, c.point? k = some (.waiting slot timeout) ∧ c.wakes.isPending k = true) ∨
        ∃ timeout wake, c.point? k = some (.woken slot timeout wake)) ∧
      ∀ k slot timeout, c.point? k = some (.waiting slot timeout) →
        c.semaphore.slots[slot]? = some (some k) ∧ c.wakes.isPending k = true := by
  intro c havailable
  have h : c.Watchful := watchful_run (watchful_ofSize threads initial maxWaiters clock) events
  refine ⟨fun slot k hslot => ?_, fun k slot timeout hk => ?_⟩
  · obtain ⟨p, hp, hpslot⟩ := Option.bind_eq_some_iff.1 ((h.orderly.slot_iff slot k).1 hslot)
    cases p with
    | entering => cases hpslot
    | scheduling i =>
      have hunavailable := h.orderly.unavailable k i hp
      rw [havailable] at hunavailable
      cases hunavailable
    | waiting i timeout =>
      obtain rfl := Option.some.inj hpslot
      exact Or.inl ⟨timeout, hp, h.alert havailable k i timeout hp⟩
    | woken i timeout wake =>
      obtain rfl := Option.some.inj hpslot
      exact Or.inr ⟨timeout, wake, hp⟩
    | cancelling id wake => cases hpslot
  · exact ⟨h.orderly.slot_of_place hk rfl, h.alert havailable k slot timeout hk⟩

/-- The wake of a give is coalesced with one that a timer left before, and the taker still has it. -/
theorem no_lost_wakeup_coalesced :
    let c := (ofSize 2 false 1 none).run
      [.take 0 (-1), .step 0, .signal 0 (.timeout 3), .take 1 0, .step 1, .give]
    c.semaphore.available = true ∧ c.point? 0 = some (.waiting 0 none) ∧
      c.wakes.isPending 0 = true := by
  have hwatched := no_lost_wakeup 2 false 1 none
    [.take 0 (-1), .step 0, .signal 0 (.timeout 3), .take 1 0, .step 1, .give] rfl
  exact ⟨rfl, rfl, (hwatched.2 0 0 none rfl).2⟩

end Crowd

end Osal
