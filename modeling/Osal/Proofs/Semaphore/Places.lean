import Mathlib.Logic.Function.Basic
import Osal.Proofs.Wakes
import Osal.Semaphore

/-!
# Where the threads of a semaphore stand

`Semaphore.Orderly s place`: the wait slots and the lock of `s` are as the threads say that stand at
the points `place`, each thread named by the notification that it waits on. A slot holds a thread
just if the thread stands at a point with that slot, and the lock is held just if one thread stands
inside a critical section. `orderly_of_step` and `orderly_of_answered`: a step of a take keeps that,
and so does an answer of the clock, whatever it says. `Take.Turns`: what either does to the unit.
-/

namespace Osal

namespace Take

/-- The wait slot that a thread holds at a point. -/
def Point.slot? : Point → Option Nat
  | .scheduling slot | .waiting slot _ | .woken slot _ _ => some slot
  | .entering | .cancelling .. => none

/-- Whether a thread at a point is inside a critical section, awaiting the clock. -/
def Point.isInside : Point → Bool
  | .scheduling _ | .cancelling .. => true
  | .entering | .waiting .. | .woken .. => false

def place (turn : Turn) : Option Point :=
  match turn with
  | .goto p => some p
  | .done _ => none

end Take

namespace Semaphore

/-- The semaphore is as the threads say that stand at the given points. -/
structure Orderly (s : Semaphore) (place : NotificationId → Option Take.Point) : Prop where
  slot_iff : ∀ slot k, s.slots[slot]? = some (some k) ↔ (place k).bind Take.Point.slot? = some slot
  lock : ∃ holder : Option NotificationId, s.locked = holder.isSome ∧
    ∀ k, (place k).any Take.Point.isInside = true ↔ holder = some k
  /-- A thread that arranges to wait has found the semaphore unavailable, and still would. -/
  unavailable : ∀ k slot, place k = some (.scheduling slot) → s.available = false

variable {s : Semaphore} {place : NotificationId → Option Take.Point} {k : NotificationId}
  {p q : Option Take.Point} {slot : Nat}

theorem orderly_ofSize (initial : Bool) (maxWaiters : Nat) (clock : Option ClockClient) :
    (ofSize initial maxWaiters clock).Orderly fun _ => none := by
  refine ⟨fun slot k => ?_, ⟨none, rfl, fun k => ?_⟩, fun k slot h => by cases h⟩
  · simp [ofSize, List.getElem?_replicate]
  · simp

theorem give_of_locked (w : Wakes) (h : s.locked = true) : s.give w = none := if_pos h

theorem give_of_unlocked (w : Wakes) (h : s.locked = false) :
    s.give w = some ({ s with available := true }, w.signalAll s.parked .released) := by
  rw [give, if_neg]
  rw [h]
  exact Bool.false_ne_true

/-! ## What keeps a semaphore orderly -/

namespace Orderly

theorem slot_of_place (h : s.Orderly place) {point : Take.Point} (hp : place k = some point)
    (hslot : point.slot? = some slot) : s.slots[slot]? = some (some k) := by
  rw [h.slot_iff, hp]
  exact hslot

theorem not_inside (h : s.Orderly place) (hunlocked : s.locked = false) (k : NotificationId) :
    (place k).any Take.Point.isInside = false := by
  obtain ⟨holder, hlocked, hinside⟩ := h.lock
  rw [hunlocked] at hlocked
  rw [← Bool.not_eq_true, hinside]
  intro hholder
  rw [hholder] at hlocked
  cases hlocked

/-- What one thread has to show when it moves, and what the others have to keep. -/
theorem update (h : s.Orderly place) {s' : Semaphore}
    (hslot : ∀ slot, s'.slots[slot]? = some (some k) ↔ p.bind Take.Point.slot? = some slot)
    (hothers : ∀ slot : Nat, ∀ j ≠ k, s'.slots[slot]? = some (some j) ↔ s.slots[slot]? = some (some j))
    (hlock : ∃ holder : Option NotificationId, s'.locked = holder.isSome ∧
      (p.any Take.Point.isInside = true ↔ holder = some k) ∧
      ∀ j ≠ k, (place j).any Take.Point.isInside = true ↔ holder = some j)
    (hsched : ∀ slot, p = some (.scheduling slot) → s'.available = false)
    (havailable : s'.available = s.available) : s'.Orderly (Function.update place k p) := by
  obtain ⟨holder, hlocked, hk, hne⟩ := hlock
  refine ⟨fun slot => ?_, ⟨holder, hlocked, ?_⟩, ?_⟩
  · rw [Function.forall_update_iff place
      fun j q => s'.slots[slot]? = some (some j) ↔ q.bind Take.Point.slot? = some slot]
    exact ⟨hslot slot, fun j hj => by rw [hothers slot j hj, h.slot_iff]⟩
  · rw [Function.forall_update_iff place
      fun j q => q.any Take.Point.isInside = true ↔ holder = some j]
    exact ⟨hk, hne⟩
  · rw [Function.forall_update_iff place
      fun _ q => ∀ slot, q = some (.scheduling slot) → s'.available = false, havailable]
    exact ⟨havailable ▸ hsched, fun j _ => h.unavailable j⟩

theorem move (h : s.Orderly place) (hslot : p.bind Take.Point.slot? = (place k).bind Take.Point.slot?)
    (hinside : p.any Take.Point.isInside = (place k).any Take.Point.isInside)
    (hsched : ∀ slot, p = some (.scheduling slot) → s.available = false) :
    s.Orderly (Function.update place k p) := by
  obtain ⟨holder, hlocked, hholder⟩ := h.lock
  refine h.update (fun slot => ?_) (fun _ _ _ => Iff.rfl) ⟨holder, hlocked, ?_, fun j _ => hholder j⟩
    hsched rfl
  · rw [h.slot_iff, hslot]
  · rw [hinside, hholder]

theorem enter (h : s.Orderly place) (hp : place k = none) :
    s.Orderly (Function.update place k (some .entering)) := by
  refine h.move ?_ ?_ fun slot hslot => ?_
  · rw [hp]; rfl
  · rw [hp]; rfl
  · cases hslot

theorem leave (h : s.Orderly place) (hp : place k = some .entering) :
    s.Orderly (Function.update place k none) := by
  refine h.move ?_ ?_ fun slot hslot => ?_
  · rw [hp]; rfl
  · rw [hp]; rfl
  · cases hslot

theorem setAvailable (h : s.Orderly place) (b : Bool) (hunlocked : b = true → s.locked = false) :
    Orderly { s with available := b } place := by
  refine ⟨h.slot_iff, h.lock, fun k slot hk => ?_⟩
  show b = false
  rw [← Bool.not_eq_true]
  intro hb
  have hinside := h.not_inside (hunlocked hb) k
  rw [hk] at hinside
  cases hinside

theorem lockAt (h : s.Orderly place) (hunlocked : s.locked = false)
    (hslot : p.bind Take.Point.slot? = (place k).bind Take.Point.slot?)
    (hinside : p.any Take.Point.isInside = true)
    (hsched : ∀ slot, p = some (.scheduling slot) → s.available = false) :
    Orderly { s with locked := true } (Function.update place k p) := by
  refine h.update (fun slot => ?_) (fun _ _ _ => Iff.rfl) ⟨some k, rfl, ?_, fun j hj => ?_⟩ hsched rfl
  · rw [hslot, ← h.slot_iff]
  · simp [hinside]
  · rw [h.not_inside hunlocked]
    simpa using hj.symm

theorem unlockAt (h : s.Orderly place) (hin : (place k).any Take.Point.isInside = true)
    (hslot : p.bind Take.Point.slot? = (place k).bind Take.Point.slot?)
    (hinside : p.any Take.Point.isInside = false) :
    Orderly { s with locked := false } (Function.update place k p) := by
  obtain ⟨holder, hlocked, hholder⟩ := h.lock
  refine h.update (fun slot => ?_) (fun _ _ _ => Iff.rfl) ⟨none, rfl, ?_, fun j hj => ?_⟩ ?_ rfl
  · rw [hslot, ← h.slot_iff]
  · simp [hinside]
  · rw [hholder, (hholder k).1 hin]
    simpa using hj.symm
  · intro slot hp
    rw [hp] at hinside
    cases hinside

theorem setSlot (h : s.Orderly place) {before after : Option NotificationId}
    (hslots : s.slots[slot]? = some before) (howned : ∀ j ∈ before, j = k)
    (htaken : ∀ j ∈ after, j = k)
    (hbefore : (place k).bind Take.Point.slot? = before.map fun _ => slot)
    (hafter : p.bind Take.Point.slot? = after.map fun _ => slot)
    (hinside : p.any Take.Point.isInside = (place k).any Take.Point.isInside)
    (hsched : ∀ slot, p = some (.scheduling slot) → s.available = false) :
    (s.setSlot slot after).Orderly (Function.update place k p) := by
  obtain ⟨holder, hlocked, hholder⟩ := h.lock
  have hlt : slot < s.slots.length := (List.getElem?_eq_some_iff.1 hslots).1
  refine h.update (fun i => ?_) (fun i j hj => ?_) ⟨holder, hlocked, ?_, fun j _ => hholder j⟩
    hsched rfl
  · show (s.slots.set slot after)[i]? = _ ↔ _
    by_cases hi : slot = i
    · subst hi
      rw [List.getElem?_set_self hlt, hafter]
      cases after with
      | none => simp
      | some j =>
        obtain rfl := htaken j rfl
        simp
    · rw [List.getElem?_set_ne hi, h.slot_iff, hbefore, hafter]
      cases before <;> cases after <;> simp [hi]
  · show (s.slots.set slot after)[i]? = _ ↔ _
    by_cases hi : slot = i
    · subst hi
      rw [List.getElem?_set_self hlt, hslots, Option.some.injEq, Option.some.injEq]
      exact ⟨fun heq => absurd (htaken j heq) hj, fun heq => absurd (howned j heq) hj⟩
    · rw [List.getElem?_set_ne hi]
  · rw [hinside, hholder]

theorem park (h : s.Orderly place) (hp : place k = some .entering) (hfree : s.freeSlot? = some slot) :
    (s.setSlot slot (some k)).Orderly (Function.update place k (some (.waiting slot none))) := by
  obtain ⟨hlt, hempty, -⟩ := List.findIdx?_eq_some_iff_getElem.1 hfree
  have hslots : s.slots[slot]? = some none := by
    rw [List.getElem?_eq_getElem hlt]
    simpa using hempty
  refine h.setSlot hslots (fun j hj => ?_) (fun j hj => ?_) ?_ rfl ?_ fun i hi => ?_
  · cases hj
  · exact (Option.some.inj hj).symm
  · rw [hp]; rfl
  · rw [hp]; rfl
  · cases hi

theorem vacate (h : s.Orderly place) {point : Take.Point} (hp : place k = some point)
    (hslot : point.slot? = some slot) (hinside : point.isInside = false) :
    (s.setSlot slot none).Orderly (Function.update place k (some .entering)) := by
  refine h.setSlot (h.slot_of_place hp hslot) (fun j hj => ?_) (fun j hj => ?_) ?_ rfl ?_
    fun i hi => ?_
  · exact (Option.some.inj hj).symm
  · cases hj
  · rw [hp]
    exact hslot
  · rw [hp]
    exact hinside.symm
  · cases hi

end Orderly

end Semaphore

namespace Take

variable {t : Take} {s : Semaphore} {w : Wakes} {place : NotificationId → Option Point}
  {point : Point}

theorem compete_cases (t : Take) (s : Semaphore) :
    (s.available = true ∧ t.compete s = ({ s with available := false }, .done (.ok ()))) ∨
    (s.available = false ∧ s.freeSlot? = none ∧
      t.compete s = (s, .done (.error (.broken (.waitQueueOverflow s.slots.length))))) ∨
    (s.available = false ∧ ∃ slot, s.freeSlot? = some slot ∧
      t.compete s = (s.setSlot slot (some t.wait), .goto (.waiting slot none))) ∨
    (s.available = false ∧ 0 < t.timeoutMs ∧ ∃ slot, s.freeSlot? = some slot ∧
      t.compete s =
        ({ s.setSlot slot (some t.wait) with locked := true }, .goto (.scheduling slot))) := by
  cases havailable : s.available with
  | true => exact Or.inl ⟨rfl, by simp [compete, havailable]⟩
  | false =>
    cases hfree : s.freeSlot? with
    | none => exact Or.inr (Or.inl ⟨rfl, rfl, by simp [compete, havailable, hfree]⟩)
    | some slot =>
      by_cases hbounded : t.isBounded (s.setSlot slot (some t.wait)) = true
      · have hpos : 0 < t.timeoutMs := by
          simp only [isBounded, Bool.and_eq_true, decide_eq_true_eq] at hbounded
          exact hbounded.2
        refine Or.inr (Or.inr (Or.inr ⟨rfl, hpos, slot, rfl, ?_⟩))
        simp [compete, havailable, hfree, hbounded]
      · refine Or.inr (Or.inr (Or.inl ⟨rfl, slot, rfl, ?_⟩))
        simp [compete, havailable, hfree, hbounded]

theorem orderly_of_compete (h : s.Orderly place) (hp : place t.wait = some .entering)
    (hunlocked : s.locked = false) :
    (t.compete s).1.Orderly (Function.update place t.wait (Take.place (t.compete s).2)) := by
  rcases compete_cases t s with ⟨-, hcompete⟩ | ⟨-, -, hcompete⟩ | ⟨-, slot, hfree, hcompete⟩ |
    ⟨hunavailable, -, slot, hfree, hcompete⟩
  · rw [hcompete]
    exact (h.setAvailable false (fun hb => by cases hb)).leave hp
  · rw [hcompete]
    exact h.leave hp
  · rw [hcompete]
    exact h.park hp hfree
  · rw [hcompete]
    have hparked := (h.park hp hfree).lockAt (k := t.wait) (p := some (.scheduling slot)) hunlocked
      (by rw [Function.update_self]; rfl) rfl (fun _ _ => hunavailable)
    rwa [Function.update_idem] at hparked

theorem orderly_of_settle (h : s.Orderly place) (hp : place t.wait = some .entering)
    (hunlocked : s.locked = false) (wake : Wakeup) :
    (t.settle s w wake).1.1.Orderly
      (Function.update place t.wait (Take.place (t.settle s w wake).2)) := by
  cases wake with
  | timeout tick => exact h.leave hp
  | released => exact orderly_of_compete h hp hunlocked

/-! ## The steps of a take -/

theorem step_cases {s' : Semaphore} {w' : Wakes} {turn : Turn}
    (h : t.step (s, w) point = some ((s', w'), turn)) :
    (point = .entering ∧ s.locked = false ∧ w' = w ∧
      (t.compete s = (s', turn) ∨
        s' = s ∧ ∃ e, (e = .wouldBlock ∨ e = .clockUnavailable) ∧ turn = refuse e)) ∨
    (∃ slot timeout wake, point = .waiting slot timeout ∧ w.pending? t.wait = some wake ∧ s' = s ∧
      w' = (w.poll t.wait).2 ∧ turn = .goto (.woken slot timeout wake)) ∨
    (∃ slot wake, point = .woken slot none wake ∧ s.locked = false ∧
      t.settle (s.setSlot slot none) w wake = ((s', w'), turn)) ∨
    (∃ slot id wake, point = .woken slot (some id) wake ∧ s.locked = false ∧
      s' = { s.setSlot slot none with locked := true } ∧ w' = w ∧
      turn = .goto (.cancelling id wake)) := by
  cases point with
  | entering =>
    left
    simp only [step] at h
    split at h
    · cases h
    · rename_i hunlocked
      have hentered : t.enter s = (s', turn) ∧ w' = w := by
        obtain ⟨hpair, hturn⟩ := Prod.mk.inj (Option.some.inj h)
        obtain ⟨hs, hw⟩ := Prod.mk.inj hpair
        exact ⟨Prod.ext hs hturn, hw.symm⟩
      refine ⟨rfl, Bool.not_eq_true _ ▸ hunlocked, hentered.2, ?_⟩
      have hturn := hentered.1
      unfold enter at hturn
      split at hturn
      · exact Or.inl hturn
      · split at hturn
        · obtain ⟨rfl, rfl⟩ := Prod.mk.inj hturn
          exact Or.inr ⟨rfl, _, Or.inl rfl, rfl⟩
        · split at hturn
          · obtain ⟨rfl, rfl⟩ := Prod.mk.inj hturn
            exact Or.inr ⟨rfl, _, Or.inr rfl, rfl⟩
          · exact Or.inl hturn
  | scheduling slot => cases h
  | waiting slot timeout =>
    right; left
    have hpoll : w.poll t.wait = (w.pending? t.wait, (w.poll t.wait).2) := rfl
    rw [step, hpoll] at h
    cases hpending : w.pending? t.wait with
    | none =>
      rw [hpending] at h
      cases h
    | some wake =>
      rw [hpending] at h
      obtain ⟨hpair, rfl⟩ := Prod.mk.inj (Option.some.inj h)
      obtain ⟨rfl, rfl⟩ := Prod.mk.inj hpair
      exact ⟨slot, timeout, wake, rfl, rfl, rfl, rfl, rfl⟩
  | woken slot timeout wake =>
    right; right
    simp only [step] at h
    split at h
    · cases h
    · rename_i hunlocked
      have hunlocked : s.locked = false := Bool.not_eq_true _ ▸ hunlocked
      cases timeout with
      | none => exact Or.inl ⟨slot, wake, rfl, hunlocked, Option.some.inj h⟩
      | some id =>
        obtain ⟨hpair, rfl⟩ := Prod.mk.inj (Option.some.inj h)
        obtain ⟨rfl, rfl⟩ := Prod.mk.inj hpair
        exact Or.inr ⟨slot, id, wake, rfl, hunlocked, rfl, rfl, rfl⟩
  | cancelling id wake => cases h

/-- The two ways in which a round ends; both leave no wake behind. -/
theorem settle_cases (t : Take) (s : Semaphore) (w : Wakes) (wake : Wakeup) :
    (∃ tick, wake = .timeout tick ∧
      t.settle s w wake = ((s, (w.poll t.wait).2), refuse .timedOut)) ∨
    (wake = .released ∧
      t.settle s w wake = (((t.compete s).1, (w.poll t.wait).2), (t.compete s).2)) := by
  cases wake with
  | timeout tick => exact Or.inl ⟨tick, rfl, rfl⟩
  | released => exact Or.inr ⟨rfl, rfl⟩

theorem answered_cases (hinside : point.isInside = true) (t : Take) (s : Semaphore) (w : Wakes)
    (result : CallResult NotificationId) :
    (∃ slot timeout, point = .scheduling slot ∧ ClockClient.scheduledOf result = .ok timeout ∧
      t.answered s w result point =
        (({ s with locked := false }, w), .goto (.waiting slot (some timeout.id)))) ∨
    (∃ slot e, point = .scheduling slot ∧ ClockClient.scheduledOf result = .error e ∧
      t.answered s w result point =
        ((({ s with locked := false } : Semaphore).setSlot slot none, w), refuse e)) ∨
    (∃ id wake, point = .cancelling id wake ∧
      t.answered s w result point = t.settle { s with locked := false } w wake) ∨
    (∃ id wake e, point = .cancelling id wake ∧ ClockClient.goneOf id result = .error e ∧
      t.answered s w result point =
        (({ s with locked := false }, (w.poll t.wait).2), refuse e)) := by
  cases point with
  | scheduling slot =>
    cases hresult : ClockClient.scheduledOf result with
    | ok timeout => exact Or.inl ⟨slot, timeout, rfl, rfl, by simp only [answered, hresult]⟩
    | error e => exact Or.inr (Or.inl ⟨slot, e, rfl, rfl, by simp only [answered, hresult]⟩)
  | cancelling id wake =>
    right; right
    cases hresult : ClockClient.goneOf id result with
    | ok gone => exact Or.inl ⟨id, wake, rfl, by simp only [answered, hresult]⟩
    | error e =>
      refine Or.inr ⟨id, wake, e, rfl, hresult, ?_⟩
      simp only [answered, hresult, Wakes.drain_snd]
  | entering => cases hinside
  | waiting slot timeout => cases hinside
  | woken slot timeout wake => cases hinside

theorem orderly_of_step (h : s.Orderly place) (hp : place t.wait = some point) {s' : Semaphore}
    {w' : Wakes} {turn : Turn} (hstep : t.step (s, w) point = some ((s', w'), turn)) :
    s'.Orderly (Function.update place t.wait (Take.place turn)) := by
  rcases step_cases hstep with ⟨rfl, hunlocked, -, hcompete | ⟨rfl, e, -, rfl⟩⟩ |
    ⟨slot, timeout, wake, rfl, -, rfl, -, rfl⟩ | ⟨slot, wake, rfl, hunlocked, hsettle⟩ |
    ⟨slot, id, wake, rfl, hunlocked, rfl, -, rfl⟩
  · have hcompeted := orderly_of_compete h hp hunlocked
    rwa [hcompete] at hcompeted
  · exact h.leave hp
  · refine h.move ?_ ?_ ?_
    · rw [hp]; rfl
    · rw [hp]; rfl
    · intro slot hslot
      cases hslot
  · have hvacated := h.vacate hp rfl rfl
    have hsettled := orderly_of_settle (w := w) hvacated (Function.update_self ..) hunlocked wake
    rwa [hsettle, Function.update_idem] at hsettled
  · have hvacated := h.vacate hp rfl rfl
    have hlocked := hvacated.lockAt (k := t.wait) (p := some (.cancelling id wake)) hunlocked
      (by rw [Function.update_self]; rfl) rfl (fun slot hslot => by cases hslot)
    rwa [Function.update_idem] at hlocked

theorem orderly_of_answered (h : s.Orderly place) (hp : place t.wait = some point)
    (hinside : point.isInside = true) (result : CallResult NotificationId) :
    (t.answered s w result point).1.1.Orderly
      (Function.update place t.wait (Take.place (t.answered s w result point).2)) := by
  have hin : (place t.wait).any Point.isInside = true := by rw [hp]; exact hinside
  rcases answered_cases hinside t s w result with ⟨slot, timeout, rfl, -, hanswered⟩ |
    ⟨slot, e, rfl, -, hanswered⟩ | ⟨id, wake, rfl, hanswered⟩ | ⟨id, wake, e, rfl, -, hanswered⟩
  · rw [hanswered]
    exact h.unlockAt hin (by rw [hp]; rfl) rfl
  · have hunlocked := h.unlockAt (p := some (.waiting slot none)) hin (by rw [hp]; rfl) rfl
    have hvacated := hunlocked.vacate (Function.update_self ..) rfl rfl
    have hleft := hvacated.leave (Function.update_self ..)
    rw [hanswered]
    rwa [Function.update_idem, Function.update_idem] at hleft
  · have hunlocked := h.unlockAt (p := some .entering) hin (by rw [hp]; rfl) rfl
    have hsettled := orderly_of_settle (w := w) hunlocked (Function.update_self ..) rfl wake
    rw [hanswered]
    rwa [Function.update_idem] at hsettled
  · rw [hanswered]
    exact h.unlockAt hin (by rw [hp]; rfl) rfl

/-! ### The notifications that a take touches -/

@[simp] theorem wakes_of_settle (wake : Wakeup) : (t.settle s w wake).1.2 = (w.poll t.wait).2 := by
  rcases settle_cases t s w wake with ⟨tick, -, hsettle⟩ | ⟨-, hsettle⟩ <;> rw [hsettle]

theorem wakes_of_step {s' : Semaphore} {w' : Wakes} {turn : Turn}
    (hstep : t.step (s, w) point = some ((s', w'), turn)) : w' = w ∨ w' = (w.poll t.wait).2 := by
  rcases step_cases hstep with ⟨-, -, rfl, -⟩ | ⟨slot, timeout, wake, -, -, -, rfl, -⟩ |
    ⟨slot, wake, -, -, hsettle⟩ | ⟨slot, id, wake, -, -, -, rfl, -⟩
  · exact Or.inl rfl
  · exact Or.inr rfl
  · have hwakes := wakes_of_settle (t := t) (s := s.setSlot slot none) (w := w) wake
    rw [hsettle] at hwakes
    exact Or.inr hwakes
  · exact Or.inl rfl

theorem wakes_of_answered (hinside : point.isInside = true) (result : CallResult NotificationId) :
    (t.answered s w result point).1.2 = w ∨
      (t.answered s w result point).1.2 = (w.poll t.wait).2 := by
  rcases answered_cases hinside t s w result with ⟨slot, timeout, -, -, hanswered⟩ |
    ⟨slot, e, -, -, hanswered⟩ | ⟨id, wake, -, hanswered⟩ | ⟨id, wake, e, -, -, hanswered⟩
  · exact Or.inl (by rw [hanswered])
  · exact Or.inl (by rw [hanswered])
  · exact Or.inr (by rw [hanswered, wakes_of_settle])
  · exact Or.inr (by rw [hanswered])

/-! ### What a take does to the unit -/

/-- How a step of a take goes on, and whether the semaphore is available before and after it. A take that
breaks a contract finds no wait slot. -/
inductive Turns : Bool → Bool → Turn → Prop where
  | goes (unit : Bool) (p : Point) : Turns unit unit (.goto p)
  | wins : Turns true false (.done (.ok ()))
  | stops (unit : Bool) {stop : Stop}
    (hstop : ∀ v, stop = .broken v → ∃ waiters, v = .waitQueueOverflow waiters) :
    Turns unit unit (.done (.error stop))

theorem turns_refuse (unit : Bool) (e : Error) : Turns unit unit (refuse e) :=
  .stops unit fun v hv => by cases hv

theorem turns_compete (t : Take) (s : Semaphore) :
    Turns s.available (t.compete s).1.available (t.compete s).2 := by
  rcases compete_cases t s with ⟨havailable, heq⟩ | ⟨-, -, heq⟩ | ⟨-, slot, -, heq⟩ |
    ⟨-, -, slot, -, heq⟩
  · rw [heq, havailable]
    exact .wins
  · rw [heq]
    exact .stops _ fun v hv => ⟨_, (Stop.broken.inj hv).symm⟩
  · rw [heq]
    exact .goes ..
  · rw [heq]
    exact .goes ..

theorem turns_settle (t : Take) (s : Semaphore) (w : Wakes) (wake : Wakeup) :
    Turns s.available (t.settle s w wake).1.1.available (t.settle s w wake).2 := by
  rcases settle_cases t s w wake with ⟨tick, -, heq⟩ | ⟨-, heq⟩
  · rw [heq]
    exact turns_refuse ..
  · rw [heq]
    exact turns_compete t s

theorem turns_step {s' : Semaphore} {w' : Wakes} {turn : Turn}
    (hstep : t.step (s, w) point = some ((s', w'), turn)) :
    Turns s.available s'.available turn := by
  rcases step_cases hstep with ⟨-, -, -, hcompete | ⟨rfl, e, -, rfl⟩⟩ |
    ⟨slot, timeout, wake, -, -, rfl, -, rfl⟩ | ⟨slot, wake, -, -, hsettle⟩ |
    ⟨slot, id, wake, -, -, rfl, -, rfl⟩
  · have hturns := turns_compete t s
    rwa [hcompete] at hturns
  · exact turns_refuse ..
  · exact .goes ..
  · have hturns := turns_settle t (s.setSlot slot none) w wake
    rwa [hsettle] at hturns
  · exact .goes ..

theorem turns_answered (hinside : point.isInside = true) (t : Take) (s : Semaphore) (w : Wakes)
    (result : CallResult NotificationId) :
    Turns s.available (t.answered s w result point).1.1.available
      (t.answered s w result point).2 := by
  rcases answered_cases hinside t s w result with ⟨slot, timeout, -, -, heq⟩ |
    ⟨slot, e, -, -, heq⟩ | ⟨id, wake, -, heq⟩ | ⟨id, wake, e, -, -, heq⟩
  · rw [heq]
    exact .goes ..
  · rw [heq]
    exact turns_refuse ..
  · rw [heq]
    exact turns_settle t { s with locked := false } w wake
  · rw [heq]
    exact turns_refuse ..

end Take

end Osal
