import Osal.Proofs.Semaphore.Conservation

/-!
# A take survives any clock

A call of `take` ends with an error in four ways: refused before it waits, because the clock grants no
timeout, because a timeout fired, or because the clock fails to cancel one. Whatever the clock answers,
and whatever the other threads do meanwhile, the call then leaves the semaphore as the others have it:
`take_survives`. It also says which error a timeout is reported as.

The wait slot that a thread held last is followed along the run (`lastSlot`). While the thread awaits
the answer to its cancellation it holds no slot, and the slot stays free because the thread is inside a
critical section (`Trail`).
-/

namespace Osal

namespace Semaphore

variable {s s' s'' : Semaphore} {k : NotificationId} {slot : Nat}

/-- The slots of all other threads and the availability are the same. -/
structure Spares (k : NotificationId) (s s' : Semaphore) : Prop where
  available : s'.available = s.available
  slot_iff : ∀ slot : Nat, ∀ j ≠ k, s'.slots[slot]? = some (some j) ↔ s.slots[slot]? = some (some j)

theorem Spares.refl (k : NotificationId) (s : Semaphore) : Spares k s s :=
  ⟨rfl, fun _ _ _ => Iff.rfl⟩

theorem Spares.trans (h : Spares k s s') (h' : Spares k s' s'') : Spares k s s'' :=
  ⟨h'.available.trans h.available, fun slot j hj => (h'.slot_iff slot j hj).trans (h.slot_iff slot j hj)⟩

theorem spares_setLocked (k : NotificationId) (s : Semaphore) (b : Bool) :
    Spares k s { s with locked := b } := ⟨rfl, fun _ _ _ => Iff.rfl⟩

theorem spares_setSlot {before after : Option NotificationId} (hslot : s.slots[slot]? = some before)
    (hbefore : ∀ j ∈ before, j = k) (hafter : ∀ j ∈ after, j = k) :
    Spares k s (s.setSlot slot after) := by
  have hlt : slot < s.slots.length := (List.getElem?_eq_some_iff.1 hslot).1
  refine ⟨rfl, fun i j hj => ?_⟩
  show (s.slots.set slot after)[i]? = _ ↔ _
  by_cases hi : slot = i
  · subst hi
    rw [List.getElem?_set_self hlt, hslot, Option.some.injEq, Option.some.injEq]
    exact ⟨fun heq => absurd (hafter j heq) hj, fun heq => absurd (hbefore j heq) hj⟩
  · rw [List.getElem?_set_ne hi]

theorem spares_park (hfree : s.freeSlot? = some slot) : Spares k s (s.setSlot slot (some k)) := by
  obtain ⟨hlt, hempty, -⟩ := List.findIdx?_eq_some_iff_getElem.1 hfree
  have hslot : s.slots[slot]? = some none := by
    rw [List.getElem?_eq_getElem hlt]
    simpa using hempty
  exact spares_setSlot hslot (fun j hj => by cases hj) fun j hj => (Option.some.inj hj).symm

end Semaphore

namespace Take

open Semaphore (Spares)

variable {t : Take} {s s' : Semaphore} {w w' : Wakes} {place : NotificationId → Option Point}
  {point : Point} {turn : Turn} {e : Error}

/-- The wake that resumed a thread that has not waited again since. -/
def Point.wake? : Point → Option Wakeup
  | .woken _ _ wake | .cancelling _ wake => some wake
  | .entering | .scheduling _ | .waiting .. => none

/-! ## What a take does to the others -/

theorem spares_compete (t : Take) (s : Semaphore) (hlost : (t.compete s).2 ≠ .done (.ok ())) :
    Spares t.wait s (t.compete s).1 := by
  rcases compete_cases t s with ⟨-, hcompete⟩ | ⟨-, -, hcompete⟩ | ⟨-, slot, hfree, hcompete⟩ |
    ⟨-, -, slot, hfree, hcompete⟩
  · rw [hcompete] at hlost
    exact absurd rfl hlost
  · rw [hcompete]
    exact .refl ..
  · rw [hcompete]
    exact Semaphore.spares_park hfree
  · rw [hcompete]
    exact (Semaphore.spares_park hfree).trans (Semaphore.spares_setLocked ..)

theorem spares_settle (t : Take) (s : Semaphore) (w : Wakes) (wake : Wakeup)
    (hlost : (t.settle s w wake).2 ≠ .done (.ok ())) : Spares t.wait s (t.settle s w wake).1.1 := by
  rcases settle_cases t s w wake with ⟨tick, -, hsettle⟩ | ⟨-, hsettle⟩
  · rw [hsettle]
    exact .refl ..
  · rw [hsettle] at hlost ⊢
    exact spares_compete t s hlost

theorem spares_vacate (h : s.Orderly place) {slot : Nat} (hp : place t.wait = some point)
    (hslot : point.slot? = some slot) : Spares t.wait s (s.setSlot slot none) :=
  Semaphore.spares_setSlot (h.slot_of_place hp hslot) (fun _ hj => (Option.some.inj hj).symm)
    fun _ hj => by cases hj

theorem spares_step (h : s.Orderly place) (hp : place t.wait = some point)
    (hstep : t.step (s, w) point = some ((s', w'), turn)) (hlost : turn ≠ .done (.ok ())) :
    Spares t.wait s s' := by
  rcases step_cases hstep with ⟨-, -, -, hcompete | ⟨rfl, -⟩⟩ |
    ⟨slot, timeout, wake, -, -, rfl, -, -⟩ | ⟨slot, wake, rfl, -, hsettle⟩ |
    ⟨slot, id, wake, rfl, -, rfl, -, -⟩
  · have hspares := spares_compete t s
    rw [hcompete] at hspares
    exact hspares hlost
  · exact .refl ..
  · exact .refl ..
  · have hspares := spares_settle t (s.setSlot slot none) w wake
    rw [hsettle] at hspares
    exact (spares_vacate h hp rfl).trans (hspares hlost)
  · exact (spares_vacate h hp rfl).trans (Semaphore.spares_setLocked ..)

theorem spares_answered (h : s.Orderly place) (hp : place t.wait = some point)
    (hinside : point.isInside = true) (result : CallResult NotificationId)
    (hlost : (t.answered s w result point).2 ≠ .done (.ok ())) :
    Spares t.wait s (t.answered s w result point).1.1 := by
  rcases answered_cases hinside t s w result with ⟨slot, timeout, -, -, hanswered⟩ |
    ⟨slot, e, rfl, -, hanswered⟩ | ⟨id, wake, -, hanswered⟩ | ⟨id, wake, e, -, -, hanswered⟩
  · rw [hanswered]
    exact Semaphore.spares_setLocked ..
  · rw [hanswered]
    exact (spares_vacate h hp rfl).trans (Semaphore.spares_setLocked ..)
  · rw [hanswered] at hlost ⊢
    exact (Semaphore.spares_setLocked ..).trans (spares_settle t { s with locked := false } w wake hlost)
  · rw [hanswered]
    exact Semaphore.spares_setLocked ..

/-! ## How a take is refused -/

theorem compete_ne_refuse (t : Take) (s : Semaphore) (e : Error) : (t.compete s).2 ≠ refuse e := by
  rcases compete_cases t s with ⟨-, hcompete⟩ | ⟨-, -, hcompete⟩ | ⟨-, slot, -, hcompete⟩ |
    ⟨-, -, slot, -, hcompete⟩ <;> rw [hcompete] <;> intro h <;> cases h

theorem settle_eq_refuse {wake : Wakeup} (h : t.settle s w wake = ((s', w'), refuse e)) :
    (∃ tick, wake = .timeout tick) ∧ e = .timedOut ∧ s' = s ∧ w' = (w.poll t.wait).2 := by
  rcases settle_cases t s w wake with ⟨tick, rfl, hsettle⟩ | ⟨-, hsettle⟩
  · rw [hsettle] at h
    cases h
    exact ⟨⟨tick, rfl⟩, rfl, rfl, rfl⟩
  · rw [hsettle] at h
    exact absurd (congrArg (·.2) h) (compete_ne_refuse t s e)

theorem step_eq_refuse (hstep : t.step (s, w) point = some ((s', w'), refuse e)) :
    s.locked = false ∧ ((point = .entering ∧ s' = s) ∨
      ∃ slot tick, point = .woken slot none (.timeout tick) ∧ s' = s.setSlot slot none ∧
        e = .timedOut) := by
  rcases step_cases hstep with ⟨rfl, hunlocked, -, hcompete | ⟨rfl, -⟩⟩ |
    ⟨slot, timeout, wake, -, -, -, -, hturn⟩ | ⟨slot, wake, rfl, hunlocked, hsettle⟩ |
    ⟨slot, id, wake, -, -, -, -, hturn⟩
  · exact absurd (congrArg (·.2) hcompete) (compete_ne_refuse t s e)
  · exact ⟨hunlocked, Or.inl ⟨rfl, rfl⟩⟩
  · cases hturn
  · obtain ⟨⟨tick, rfl⟩, he, hs, -⟩ := settle_eq_refuse hsettle
    exact ⟨hunlocked, Or.inr ⟨slot, tick, rfl, hs, he⟩⟩
  · cases hturn

/-- What a take is refused with once its cancellation was answered. -/
def Refusal (id : TimeoutId) (wake : Wakeup) (result : CallResult NotificationId) (e : Error) : Prop :=
  match ClockClient.cancelledOf id result with
  | .ok () | .error (.timeoutNotFound _) => (∃ tick, wake = .timeout tick) ∧ e = .timedOut
  | .error cause => e = cause

theorem refusal_iff {id : TimeoutId} {wake : Wakeup} {result : CallResult NotificationId} :
    Refusal id wake result e ↔
      (ClockClient.goneOf id result = .ok () ∧ (∃ tick, wake = .timeout tick) ∧ e = .timedOut) ∨
        ClockClient.goneOf id result = .error e := by
  unfold Refusal ClockClient.goneOf
  cases ClockClient.cancelledOf id result with
  | ok gone => simp
  | error cause =>
    cases cause with
    | timeoutNotFound other => simp
    | _ => simp [eq_comm]

theorem goneOf_of_failed {id : TimeoutId} {result : CallResult NotificationId}
    (h : ClockClient.cancelledOf id result = .error e) (hother : ∀ other, e ≠ .timeoutNotFound other) :
    ClockClient.goneOf id result = .error e := by
  unfold ClockClient.goneOf
  rw [h]
  cases e with
  | timeoutNotFound other => exact absurd rfl (hother other)
  | _ => rfl

theorem answered_eq_refuse {result : CallResult NotificationId} (hinside : point.isInside = true)
    (hanswered : t.answered s w result point = ((s', w'), refuse e)) :
    s'.locked = false ∧ ((∃ slot, point = .scheduling slot ∧
        s' = ({ s with locked := false } : Semaphore).setSlot slot none) ∨
      ∃ id wake, point = .cancelling id wake ∧ s' = { s with locked := false } ∧
        w' = (w.poll t.wait).2 ∧ Refusal id wake result e) := by
  cases point with
  | entering => cases hinside
  | waiting slot timeout => cases hinside
  | woken slot timeout wake => cases hinside
  | scheduling slot =>
    simp only [answered] at hanswered
    cases hresult : ClockClient.scheduledOf result with
    | ok timeout =>
      rw [hresult] at hanswered
      cases hanswered
    | error cause =>
      rw [hresult] at hanswered
      cases hanswered
      exact ⟨rfl, Or.inl ⟨slot, rfl, rfl⟩⟩
  | cancelling id wake =>
    simp only [answered] at hanswered
    cases hresult : ClockClient.goneOf id result with
    | ok gone =>
      rw [hresult] at hanswered
      obtain ⟨htimeout, he, rfl, hw⟩ := settle_eq_refuse hanswered
      exact ⟨rfl, Or.inr ⟨id, wake, rfl, rfl, hw, refusal_iff.2 (Or.inl ⟨hresult, htimeout, he⟩)⟩⟩
    | error cause =>
      rw [hresult] at hanswered
      cases hanswered
      exact ⟨rfl, Or.inr ⟨id, wake, rfl, rfl, Wakes.drain_snd, refusal_iff.2 (Or.inr hresult)⟩⟩

/-! ## How a take goes on -/

theorem slot_of_compete {q : Point} (h : (t.compete s).2 = .goto q) : q.slot?.isSome = true := by
  rcases compete_cases t s with ⟨-, hcompete⟩ | ⟨-, -, hcompete⟩ | ⟨-, slot, -, hcompete⟩ |
    ⟨-, -, slot, -, hcompete⟩
  · rw [hcompete] at h
    cases h
  · rw [hcompete] at h
    cases h
  · rw [hcompete] at h
    cases h
    rfl
  · rw [hcompete] at h
    cases h
    rfl

theorem slot_of_settle {wake : Wakeup} {q : Point} (h : (t.settle s w wake).2 = .goto q) :
    q.slot?.isSome = true := by
  rcases settle_cases t s w wake with ⟨tick, -, hsettle⟩ | ⟨-, hsettle⟩
  · rw [hsettle] at h
    cases h
  · rw [hsettle] at h
    exact slot_of_compete h

theorem step_eq_goto {q : Point} (hstep : t.step (s, w) point = some ((s', w'), .goto q))
    (hq : q.slot? = none) : ∃ slot id wake, point = .woken slot (some id) wake ∧
      q = .cancelling id wake ∧ s' = { s.setSlot slot none with locked := true } := by
  have hnone : q.slot?.isSome ≠ true := by
    rw [hq]
    exact Bool.false_ne_true
  rcases step_cases hstep with ⟨-, -, -, hcompete | ⟨-, e, -, hturn⟩⟩ |
    ⟨slot, timeout, wake, -, -, -, -, hturn⟩ | ⟨slot, wake, -, -, hsettle⟩ |
    ⟨slot, id, wake, rfl, -, rfl, -, hturn⟩
  · exact absurd (slot_of_compete (congrArg (·.2) hcompete)) hnone
  · cases hturn
  · cases hturn
    cases hq
  · exact absurd (slot_of_settle (congrArg (·.2) hsettle)) hnone
  · cases hturn
    exact ⟨slot, id, wake, rfl, rfl, rfl⟩

theorem slot_of_answered (hinside : point.isInside = true) {result : CallResult NotificationId}
    {q : Point} (h : (t.answered s w result point).2 = .goto q) : q.slot?.isSome = true := by
  rcases answered_cases hinside t s w result with ⟨slot, timeout, -, -, hanswered⟩ |
    ⟨slot, e, -, -, hanswered⟩ | ⟨id, wake, -, hanswered⟩ | ⟨id, wake, e, -, -, hanswered⟩
  · rw [hanswered] at h
    cases h
    rfl
  · rw [hanswered] at h
    cases h
  · rw [hanswered] at h
    exact slot_of_settle h
  · rw [hanswered] at h
    cases h

/-! ## Timeouts that fired -/

theorem step_of_timeout {tick : Tick} (hwake : point.wake? = some (.timeout tick))
    {next : (Semaphore × Wakes) × Turn} (hstep : t.step (s, w) point = some next) :
    (∃ slot, point = .woken slot none (.timeout tick) ∧ next.2 = refuse .timedOut) ∨
      ∃ id, next.2 = .goto (.cancelling id (.timeout tick)) := by
  cases point with
  | entering => cases hwake
  | scheduling slot => cases hwake
  | waiting slot timeout => cases hwake
  | cancelling id wake => cases hstep
  | woken slot timeout wake =>
    obtain rfl : wake = .timeout tick := Option.some.inj hwake
    simp only [step] at hstep
    split at hstep
    · cases hstep
    · cases timeout with
      | none =>
        cases hstep
        exact Or.inl ⟨slot, rfl, rfl⟩
      | some id =>
        cases hstep
        exact Or.inr ⟨id, rfl⟩

theorem answered_of_failed {id : TimeoutId} {wake : Wakeup} {result : CallResult NotificationId}
    (hfailed : ClockClient.goneOf id result = .error e) :
    (t.answered s w result (.cancelling id wake)).2 = refuse e := by
  simp only [answered, hfailed]

theorem answered_of_timeout {tick : Tick} (hwake : point.wake? = some (.timeout tick))
    (hinside : point.isInside = true) (result : CallResult NotificationId) :
    ∃ id e, point = .cancelling id (.timeout tick) ∧ Refusal id (.timeout tick) result e ∧
      (t.answered s w result point).2 = refuse e := by
  cases point with
  | entering => cases hwake
  | scheduling slot => cases hwake
  | waiting slot timeout => cases hwake
  | woken slot timeout wake => cases hinside
  | cancelling id wake =>
    obtain rfl : wake = .timeout tick := Option.some.inj hwake
    cases hresult : ClockClient.goneOf id result with
    | ok gone =>
      refine ⟨id, .timedOut, rfl, refusal_iff.2 (Or.inl ⟨hresult, ⟨tick, rfl⟩, rfl⟩), ?_⟩
      simp only [answered, hresult]
      rfl
    | error e =>
      exact ⟨id, e, rfl, refusal_iff.2 (Or.inr hresult), answered_of_failed hresult⟩

end Take

namespace Crowd

open Semaphore (Spares)

variable {c : Crowd} {k : NotificationId} {event : Event} {last : Option Nat}
  {outcome : Take.Outcome} {e : Error}

def Event.isBy (k : NotificationId) : Event → Prop
  | .take j _ | .step j | .answer j _ => j = k
  | .give | .signal .. => False

/-- The wait slot that a thread came to hold last in a run, given the one before the run. -/
def lastSlot (k : NotificationId) : Crowd → Option Nat → List Event → Option Nat
  | _, last, [] => last
  | c, last, event :: events =>
    lastSlot k (c.handle event) ((((c.handle event).point? k).bind Take.Point.slot?).or last) events

@[simp] theorem run_append (c : Crowd) (events rest : List Event) :
    c.run (events ++ rest) = (c.run events).run rest := List.foldl_append

@[simp] theorem history_append (c : Crowd) (events rest : List Event) :
    c.history (events ++ rest) = c.history events ++ (c.run events).history rest := by
  induction events generalizing c with
  | nil => rfl
  | cons event events ih =>
    rw [List.cons_append, history, history, ih, List.append_assoc]
    rfl

/-! ## The other threads -/

theorem point?_of_other (hother : ¬ event.isBy k) : (c.handle event).point? k = c.point? k := by
  have hdoes := does_handle c event
  generalize c.deed? event = deed, c.handle event = c' at hdoes ⊢
  cases hdoes with
  | nothing => rfl
  | enter timeoutMs hj =>
    have hne := Ne.symm (show ¬ _ = k from hother)
    simp only [point?, Function.update_of_ne hne]
  | step hj hstep =>
    have hne := Ne.symm (show ¬ _ = k from hother)
    simp [hne]
  | answer result hj hinside hnext =>
    have hne := Ne.symm (show ¬ _ = k from hother)
    simp [hne]
  | give => rfl
  | signal => rfl

theorem slots_of_other (h : c.Watchful) (hk : (c.point? k).any Take.Point.isInside = true)
    (hother : ¬ event.isBy k) : (c.handle event).semaphore.slots = c.semaphore.slots := by
  obtain ⟨holder, hlocked, hholder⟩ := h.orderly.lock
  obtain rfl := (hholder k).1 hk
  have hdoes := does_handle c event
  generalize c.deed? event = deed, c.handle event = c' at hdoes ⊢
  cases hdoes with
  | nothing => rfl
  | enter => rfl
  | @step j timeoutMs p next hj hstep =>
    obtain ⟨⟨s', w'⟩, turn⟩ := next
    rcases Take.step_cases hstep with ⟨-, hunlocked, -⟩ | ⟨slot, timeout, wake, -, -, rfl, -, -⟩ |
      ⟨slot, wake, -, hunlocked, -⟩ | ⟨slot, id, wake, -, hunlocked, -⟩
    · rw [hunlocked] at hlocked
      cases hlocked
    · rfl
    · rw [hunlocked] at hlocked
      cases hlocked
    · rw [hunlocked] at hlocked
      cases hlocked
  | @answer j timeoutMs p result next hj hinside hnext =>
    have hj : (c.point? j).any Take.Point.isInside = true := by
      rw [point?, hj]
      exact hinside
    exact absurd (Option.some.inj ((hholder j).1 hj)).symm hother
  | give => rfl
  | signal => rfl

/-! ## What a call does -/

theorem spares_handle (h : c.Watchful) (hby : event.isBy k)
    (hlost : c.deed? event ≠ some (.took k (.ok ()))) :
    Spares k c.semaphore (c.handle event).semaphore := by
  have hdoes := does_handle c event
  generalize c.deed? event = deed, c.handle event = c' at hdoes hlost ⊢
  cases hdoes with
  | nothing => exact .refl ..
  | enter => exact .refl ..
  | @step j timeoutMs p next hj hstep =>
    obtain rfl : j = k := hby
    have hp := point?_of_threads hj
    refine Take.spares_step (t := { timeoutMs, wait := j }) h.orderly hp hstep fun hturn => hlost ?_
    rw [hturn]
    rfl
  | @answer j timeoutMs p result next hj hinside hnext =>
    obtain rfl : j = k := hby
    have hp := point?_of_threads hj
    subst hnext
    refine Take.spares_answered (t := { timeoutMs, wait := j }) h.orderly hp hinside result
      fun hturn => hlost ?_
    rw [hturn]
    rfl
  | give => cases hby
  | signal => cases hby

/-- The slot that a thread held last is the one it holds, or it is free while the thread awaits the
answer to its cancellation. -/
def Trail (c : Crowd) (k : NotificationId) (last : Option Nat) : Prop :=
  ∀ slot, last = some slot → (c.point? k).bind Take.Point.slot? = some slot ∨
    (∃ id wake, c.point? k = some (.cancelling id wake)) ∧ c.semaphore.slots[slot]? = some none

theorem Trail.slot_eq (htrail : c.Trail k last) {p : Take.Point} (hp : c.point? k = some p)
    (hother : ∀ id wake, p ≠ .cancelling id wake) {slot : Nat} (hlast : last = some slot) :
    p.slot? = some slot := by
  rcases htrail slot hlast with hheld | ⟨⟨id, wake, hcancelling⟩, -⟩
  · rw [hp] at hheld
    exact hheld
  · exact absurd (Option.some.inj (hp.symm.trans hcancelling)) (hother id wake)

theorem Trail.own (h : c.Watchful) (htrail : c.Trail k last) (hby : event.isBy k)
    (hstays : ∀ outcome, c.deed? event ≠ some (.took k outcome))
    (hnone : ((c.handle event).point? k).bind Take.Point.slot? = none) {slot : Nat}
    (hlast : last = some slot) :
    (∃ id wake, (c.handle event).point? k = some (.cancelling id wake)) ∧
      (c.handle event).semaphore.slots[slot]? = some none := by
  have hslot := htrail slot hlast
  have hdoes := does_handle c event
  generalize c.deed? event = deed, c.handle event = c' at hdoes hstays hnone ⊢
  cases hdoes with
  | nothing =>
    refine hslot.resolve_left fun hheld => ?_
    rw [hnone] at hheld
    cases hheld
  | enter timeoutMs hj =>
    obtain rfl : _ = k := hby
    rw [point?, hj] at hslot
    rcases hslot with hheld | ⟨⟨id, wake, hcancelling⟩, -⟩
    · cases hheld
    · cases hcancelling
  | @step j timeoutMs p next hj hstep =>
    obtain rfl : j = k := hby
    obtain ⟨⟨s', w'⟩, turn⟩ := next
    cases turn with
    | done outcome => exact absurd rfl (hstays outcome)
    | goto q =>
      rw [point?_advance, Function.update_self] at hnone
      -- inside a call only the step that starts to cancel gives the slot back
      obtain ⟨i, id, wake, rfl, rfl, rfl⟩ := Take.step_eq_goto hstep hnone
      have hp := point?_of_threads hj
      obtain rfl : i = slot :=
        Option.some.inj (htrail.slot_eq hp (fun _ _ heq => by cases heq) hlast)
      have hlt := (List.getElem?_eq_some_iff.1 (h.orderly.slot_of_place hp rfl)).1
      refine ⟨⟨id, wake, ?_⟩, List.getElem?_set_self hlt⟩
      simp [Take.place]
  | @answer j timeoutMs p result next hj hinside hnext =>
    obtain rfl : j = k := hby
    obtain ⟨⟨s', w'⟩, turn⟩ := next
    cases turn with
    | done outcome => exact absurd rfl (hstays outcome)
    | goto q =>
      have hheld := Take.slot_of_answered hinside (congrArg (·.2) hnext)
      rw [point?_advance, Function.update_self] at hnone
      rw [show q.slot? = none from hnone] at hheld
      cases hheld
  | give => cases hby
  | signal => cases hby

theorem Trail.handle (h : c.Watchful) (htrail : c.Trail k last)
    (hstays : ∀ outcome, c.deed? event ≠ some (.took k outcome)) :
    (c.handle event).Trail k ((((c.handle event).point? k).bind Take.Point.slot?).or last) := by
  intro slot hlast
  cases hslot : ((c.handle event).point? k).bind Take.Point.slot? with
  | some i =>
    rw [hslot, Option.some_or] at hlast
    exact Or.inl hlast
  | none =>
    rw [hslot, Option.none_or] at hlast
    right
    by_cases hby : event.isBy k
    · exact htrail.own h hby hstays hslot hlast
    · rw [point?_of_other hby] at hslot ⊢
      rcases htrail slot hlast with hheld | ⟨⟨id, wake, hcancelling⟩, hfree⟩
      · rw [hslot] at hheld
        cases hheld
      · have hinside : (c.point? k).any Take.Point.isInside = true := by
          rw [hcancelling]
          rfl
        exact ⟨⟨id, wake, hcancelling⟩, by rw [slots_of_other h hinside hby]; exact hfree⟩

theorem stays_cons {events : List Event}
    (hstays : ∀ outcome, .took k outcome ∉ c.history (event :: events)) :
    (∀ outcome, c.deed? event ≠ some (.took k outcome)) ∧
      ∀ outcome, .took k outcome ∉ (c.handle event).history events := by
  refine ⟨fun outcome hdeed => hstays outcome (List.mem_append_left _ ?_),
    fun outcome hmem => hstays outcome (List.mem_append_right _ hmem)⟩
  rw [hdeed]
  exact List.mem_cons_self

theorem Trail.run (h : c.Watchful) (htrail : c.Trail k last) (events : List Event)
    (hstays : ∀ outcome, .took k outcome ∉ c.history events) :
    (c.run events).Trail k (lastSlot k c last events) := by
  induction events generalizing c last with
  | nil => exact htrail
  | cons event events ih =>
    obtain ⟨hfirst, hrest⟩ := stays_cons hstays
    exact ih (watchful_handle h event) (htrail.handle h hfirst) hrest

theorem wake_handle {tick : Tick}
    (hwake : (c.point? k).bind Take.Point.wake? = some (.timeout tick))
    (hstays : ∀ outcome, c.deed? event ≠ some (.took k outcome)) :
    ((c.handle event).point? k).bind Take.Point.wake? = some (.timeout tick) := by
  by_cases hby : event.isBy k
  · have hdoes := does_handle c event
    generalize c.deed? event = deed, c.handle event = c' at hdoes hstays ⊢
    cases hdoes with
    | nothing => exact hwake
    | enter timeoutMs hj =>
      obtain rfl : _ = k := hby
      rw [point?, hj] at hwake
      cases hwake
    | @step j timeoutMs p next hj hstep =>
      obtain rfl : j = k := hby
      rw [point?, hj] at hwake
      rw [point?_advance, Function.update_self]
      rcases Take.step_of_timeout hwake hstep with ⟨slot, -, hturn⟩ | ⟨id, hturn⟩
      · rw [hturn] at hstays
        exact absurd rfl (hstays _)
      · rw [hturn]
        rfl
    | @answer j timeoutMs p result next hj hinside hnext =>
      obtain rfl : j = k := hby
      rw [point?, hj] at hwake
      obtain ⟨id, e, -, -, hturn⟩ := Take.answered_of_timeout (t := { timeoutMs, wait := j })
        (s := c.semaphore) (w := c.wakes) hwake hinside result
      rw [← hnext, hturn] at hstays
      exact absurd rfl (hstays _)
    | give => cases hby
    | signal => cases hby
  · rwa [point?_of_other hby]

theorem wake_run {tick : Tick} (hwake : (c.point? k).bind Take.Point.wake? = some (.timeout tick))
    (events : List Event) (hstays : ∀ outcome, .took k outcome ∉ c.history events) :
    ((c.run events).point? k).bind Take.Point.wake? = some (.timeout tick) := by
  induction events generalizing c with
  | nil => exact hwake
  | cons event events ih =>
    obtain ⟨hfirst, hrest⟩ := stays_cons hstays
    exact ih (wake_handle hwake hfirst) hrest

/-! ## How a call ends -/

/-- Everything that ends a call with an error other than for want of a slot. -/
theorem refused_cases (hrefused : c.deed? event = some (.took k (.error (.refused e)))) :
    (c.handle event).semaphore.locked = false ∧
      ((c.point? k = some .entering ∧ (c.handle event).semaphore = c.semaphore) ∨
        (∃ slot tick, c.point? k = some (.woken slot none (.timeout tick)) ∧
          (c.handle event).semaphore = c.semaphore.setSlot slot none) ∨
        (∃ slot, c.point? k = some (.scheduling slot) ∧ (c.handle event).semaphore =
          ({ c.semaphore with locked := false } : Semaphore).setSlot slot none) ∨
        ∃ id wake, c.point? k = some (.cancelling id wake) ∧
          (c.handle event).semaphore = { c.semaphore with locked := false } ∧
          (c.handle event).wakes = (c.wakes.poll k).2) := by
  have hdoes := does_handle c event
  rw [hrefused] at hdoes
  generalize hdeed : some (Deed.took k (.error (.refused e))) = deed, c.handle event = c' at hdoes ⊢
  cases hdoes with
  | nothing => cases hdeed
  | enter => cases hdeed
  | @step j timeoutMs p next hj hstep =>
    obtain ⟨⟨s', w'⟩, turn⟩ := next
    cases turn with
    | goto q => cases hdeed
    | done outcome =>
      cases hdeed
      have hp := point?_of_threads hj
      obtain ⟨hunlocked, ⟨rfl, rfl⟩ | ⟨slot, tick, rfl, rfl, -⟩⟩ := Take.step_eq_refuse hstep
      · exact ⟨hunlocked, Or.inl ⟨hp, rfl⟩⟩
      · exact ⟨hunlocked, Or.inr (Or.inl ⟨slot, tick, hp, rfl⟩)⟩
  | @answer j timeoutMs p result next hj hinside hnext =>
    obtain ⟨⟨s', w'⟩, turn⟩ := next
    cases turn with
    | goto q => cases hdeed
    | done outcome =>
      cases hdeed
      have hp := point?_of_threads hj
      obtain ⟨hunlocked, ⟨slot, rfl, rfl⟩ | ⟨id, wake, rfl, rfl, rfl, -⟩⟩ :=
        Take.answered_eq_refuse hinside hnext
      · exact ⟨hunlocked, Or.inr (Or.inr (Or.inl ⟨slot, hp, rfl⟩))⟩
      · exact ⟨hunlocked, Or.inr (Or.inr (Or.inr ⟨id, wake, hp, rfl, rfl⟩))⟩
  | give => cases hdeed
  | signal => cases hdeed

/-- The slot that the thread held last is free when its call ends with an error. -/
theorem Trail.vacated (h : c.Watchful) (htrail : c.Trail k last)
    (hrefused : c.deed? event = some (.took k (.error (.refused e)))) {slot : Nat}
    (hlast : last = some slot) : (c.handle event).semaphore.slots[slot]? = some none := by
  have hset : ∀ {p : Take.Point}, c.point? k = some p → p.slot? = some slot →
      (c.semaphore.slots.set slot none)[slot]? = some none := fun hp hheld =>
    List.getElem?_set_self (List.getElem?_eq_some_iff.1 (h.orderly.slot_of_place hp hheld)).1
  obtain ⟨-, ⟨hp, hs⟩ | ⟨i, tick, hp, hs⟩ | ⟨i, hp, hs⟩ | ⟨id, wake, hp, hs, -⟩⟩ :=
    refused_cases hrefused
  · cases htrail.slot_eq hp (fun _ _ heq => by cases heq) hlast
  · have hheld := htrail.slot_eq hp (fun _ _ heq => by cases heq) hlast
    obtain rfl : i = slot := Option.some.inj hheld
    rw [hs]
    exact hset hp hheld
  · have hheld := htrail.slot_eq hp (fun _ _ heq => by cases heq) hlast
    obtain rfl : i = slot := Option.some.inj hheld
    rw [hs]
    exact hset hp hheld
  · rw [hs]
    refine ((htrail slot hlast).resolve_left fun hheld => ?_).2
    rw [hp] at hheld
    cases hheld

/-- What a call that ends with an error leaves: nothing of its own, and all else as the others have
it. -/
structure Unharmed (c : Crowd) (k : NotificationId) (call : List Event) (last : Event) : Prop where
  left : (c.run (call ++ [last])).threads k = none
  unlocked : (c.run (call ++ [last])).semaphore.locked = false
  /-- The slot that the thread parked in last is empty. -/
  vacated : ∀ slot, lastSlot k c none call = some slot →
    (c.run (call ++ [last])).semaphore.slots[slot]? = some none
  no_slot : ∀ slot : Nat, (c.run (call ++ [last])).semaphore.slots[slot]? ≠ some (some k)
  /-- Nothing that the thread did changed what is not its own. -/
  spared : ∀ before event after, call ++ [last] = before ++ event :: after → event.isBy k →
    Spares k (c.run before).semaphore (c.run (before ++ [event])).semaphore
  /-- Where the call ended with its cancellation, no wake is left. -/
  drained : ∀ id wake, (c.run call).point? k = some (.cancelling id wake) →
    (c.run (call ++ [last])).wakes.pending? k = none

/-- What a call reports of a timeout. -/
structure Reported (c : Crowd) (k : NotificationId) (call : List Event) (last : Event)
    (outcome : Take.Outcome) : Prop where
  /-- A thread that a timeout resumed does not wait again: its call ends with `timedOut`, or with what
  the answer to its cancellation makes of it. -/
  of_timeout : ∀ before after tick, call = before ++ after →
    ((c.run before).point? k).bind Take.Point.wake? = some (.timeout tick) →
    (∃ slot, (c.run call).point? k = some (.woken slot none (.timeout tick)) ∧
      outcome = .error (.refused .timedOut)) ∨
    ∃ id result e, (c.run call).point? k = some (.cancelling id (.timeout tick)) ∧
      last = .answer k result ∧ Take.Refusal id (.timeout tick) result e ∧
      outcome = .error (.refused e)
  /-- A cancellation that fails, other than for a timeout that is gone, is reported as it is. -/
  of_failed : ∀ id wake result e, (c.run call).point? k = some (.cancelling id wake) →
    last = .answer k result → ClockClient.cancelledOf id result = .error e →
    (∀ other, e ≠ .timeoutNotFound other) → outcome = .error (.refused e)

theorem run_concat (c : Crowd) (events : List Event) (last : Event) :
    c.run (events ++ [last]) = (c.run events).handle last := run_append ..

theorem unharmed_of_refused (h : c.Watchful) {call : List Event}
    (hstays : ∀ outcome, .took k outcome ∉ c.history call)
    (hrefused : (c.run call).deed? event = some (.took k (.error (.refused e)))) :
    Unharmed c k call event := by
  have hrun : (c.run call).Watchful := watchful_run h call
  have hafter : ((c.run call).handle event).Watchful := watchful_handle hrun event
  obtain ⟨-, hleft⟩ := leave_of_took hrefused
  have htrail : c.Trail k none := fun slot hslot => by cases hslot
  refine ⟨?_, ?_, fun slot hlast => ?_, fun slot hslot => ?_, fun before own after hsplit hby => ?_,
    fun id wake hp => ?_⟩
  · rw [run_concat]
    exact hleft
  · rw [run_concat]
    exact (refused_cases hrefused).1
  · rw [run_concat]
    exact (htrail.run h call hstays).vacated hrun hrefused hlast
  · rw [run_concat, hafter.orderly.slot_iff, point?, hleft] at hslot
    cases hslot
  · rw [run_concat]
    refine spares_handle (watchful_run h before) hby fun hwon => ?_
    -- the deed would be told in the history of the call, which ends with an error
    have hmem : .took k (.ok ()) ∈ c.history (call ++ [event]) := by
      rw [hsplit, history_append, history, hwon]
      exact List.mem_append_right _ List.mem_cons_self
    rw [history_append, history, hrefused, List.mem_append] at hmem
    rcases hmem with hmem | hmem
    · exact hstays _ hmem
    · cases List.mem_singleton.1 hmem
  · rw [run_concat]
    obtain ⟨-, ⟨hp', -⟩ | ⟨i, tick, hp', -⟩ | ⟨i, hp', -⟩ | ⟨id, wake, -, -, hw⟩⟩ :=
      refused_cases hrefused
    · cases hp.symm.trans hp'
    · cases hp.symm.trans hp'
    · cases hp.symm.trans hp'
    · rw [hw]
      simp

theorem took_of_timeout {tick : Tick}
    (hwake : (c.point? k).bind Take.Point.wake? = some (.timeout tick))
    (htook : c.deed? event = some (.took k outcome)) :
    (∃ slot, c.point? k = some (.woken slot none (.timeout tick)) ∧
      outcome = .error (.refused .timedOut)) ∨
    ∃ id result e, c.point? k = some (.cancelling id (.timeout tick)) ∧ event = .answer k result ∧
      Take.Refusal id (.timeout tick) result e ∧ outcome = .error (.refused e) := by
  have hdoes := does_handle c event
  rw [htook] at hdoes
  generalize hdeed : some (Deed.took k outcome) = deed, c.handle event = c' at hdoes
  cases hdoes with
  | nothing => cases hdeed
  | enter => cases hdeed
  | @step j timeoutMs p next hj hstep =>
    obtain ⟨rfl, hturn⟩ := ended_eq_some_iff.1 hdeed.symm
    have hp := point?_of_threads hj
    rw [hp] at hwake
    rcases Take.step_of_timeout hwake hstep with ⟨slot, rfl, hrefused⟩ | ⟨id, hgoes⟩
    · rw [hrefused] at hturn
      cases hturn
      exact Or.inl ⟨slot, hp, rfl⟩
    · rw [hgoes] at hturn
      cases hturn
  | @answer j timeoutMs p result next hj hinside hnext =>
    obtain ⟨rfl, hturn⟩ := ended_eq_some_iff.1 hdeed.symm
    have hp := point?_of_threads hj
    rw [hp] at hwake
    obtain ⟨id, e, rfl, hrefusal, hrefused⟩ := Take.answered_of_timeout
      (t := { timeoutMs, wait := j }) (s := c.semaphore) (w := c.wakes) hwake hinside result
    rw [← hnext, hrefused] at hturn
    cases hturn
    exact Or.inr ⟨id, result, e, hp, rfl, hrefusal, rfl⟩
  | give => cases hdeed
  | signal => cases hdeed

theorem took_of_failed {id : TimeoutId} {wake : Wakeup} {result : CallResult NotificationId}
    (hp : c.point? k = some (.cancelling id wake)) (hfailed : ClockClient.goneOf id result = .error e)
    (htook : c.deed? (.answer k result) = some (.took k outcome)) : outcome = .error (.refused e) := by
  obtain ⟨⟨timeoutMs, p⟩, hk, rfl⟩ := Option.map_eq_some_iff.1 hp
  simp only [deed?, hk, Take.Point.isInside, if_true, Take.answered_of_failed hfailed] at htook
  exact (Next.done.inj (ended_eq_some_iff.1 htook).2).symm

theorem reported_of_took {call : List Event} (hstays : ∀ outcome, .took k outcome ∉ c.history call)
    (htook : (c.run call).deed? event = some (.took k outcome)) :
    Reported c k call event outcome := by
  refine ⟨fun before after tick hsplit hwake => ?_, fun id wake result e hp hlast hfailed hother => ?_⟩
  · rw [hsplit, run_append] at htook ⊢
    rw [hsplit, history_append] at hstays
    exact took_of_timeout (wake_run hwake after fun outcome hmem =>
      hstays outcome (List.mem_append_right _ hmem)) htook
  · rw [hlast] at htook
    exact took_of_failed hp (Take.goneOf_of_failed hfailed hother) htook

/-! ## A take survives any clock -/

/-- Whatever the clock answers and whenever wakes arrive: a call of `take` that ends with an error has
done no harm, and it reports a timeout as such unless the timeout cannot be cancelled. The call is the
run since the thread called, or since any later moment. -/
theorem take_survives (threads : Nat) (initial : Bool) (maxWaiters : Nat) (clock : Option ClockClient)
    (past call : List Event) (last : Event) (k : NotificationId) (outcome : Take.Outcome) :
    let c := (ofSize threads initial maxWaiters clock).run past
    (∀ outcome, .took k outcome ∉ c.history call) →
    (c.run call).deed? last = some (.took k outcome) →
      (∀ e, outcome = .error (.refused e) → Unharmed c k call last) ∧
        Reported c k call last outcome := by
  intro c hstays htook
  have h : c.Watchful := watchful_run (watchful_ofSize threads initial maxWaiters clock) past
  refine ⟨?_, reported_of_took hstays htook⟩
  rintro e rfl
  exact unharmed_of_refused h hstays htook

/-- A take is resumed by its timeout, a release comes in while it cancels the timeout, and the clock
drops the cancellation: the call ends with the fault of the cancellation and leaves no wake. -/
theorem take_survives_dropped :
    let clock : Option ClockClient := some { badge := 1 }
    let c := ofSize 2 false 2 clock
    let scheduled : Message NotificationId := { label := 0, words := [7, 0], fits := by decide }
    let call : List Event := [.take 0 1000, .step 0, .answer 0 (.ok scheduled), .take 1 (-1), .step 1,
      .signal 0 (.timeout 1000), .step 0, .step 0, .signal 0 .released]
    let last : Event := .answer 0 (.error .callerAbandoned)
    let outcome : Take.Outcome := .error (.refused (.platform .callerAbandoned))
    (∀ outcome, .took 0 outcome ∉ c.history call) ∧
      (c.run call).deed? last = some (.took 0 outcome) ∧ (c.run call).wakes.pending? 0 = some .released ∧
      Unharmed c 0 call last ∧ Reported c 0 call last outcome := by
  intro clock c scheduled call last outcome
  have hnothing : (c.history call).isEmpty = true := by decide +kernel
  have hstays : ∀ outcome, .took 0 outcome ∉ c.history call := by
    intro outcome
    rw [List.isEmpty_iff.1 hnothing]
    exact List.not_mem_nil
  have hcancelling : (c.run call).threads 0 =
      some (1000, .cancelling ⟨7, by decide⟩ (.timeout 1000)) := by decide +kernel
  have htook : (c.run call).deed? last = some (.took 0 outcome) := by
    rw [deed?, hcancelling]
    rfl
  have hpending : (c.run call).wakes.pending? 0 = some .released := by decide +kernel
  have hends := take_survives 2 false 2 clock [] call last 0 outcome hstays htook
  exact ⟨hstays, htook, hpending, hends.1 _ rfl, hends.2⟩

end Crowd

end Osal
