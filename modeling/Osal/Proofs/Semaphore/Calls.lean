import Osal.Proofs.Clock.Client
import Osal.Proofs.Semaphore.Ensemble

/-!
# What calls know and what the history tells

A thread inside of a call knows the timeout that can still wake it (`timer?`) and the wakes that it may
find (`Expects`). The history of an ensemble is `Explained` if timeouts fire once, each for the call
that it was scheduled for, and calls end as their own timeouts say.
-/

namespace Osal

/-! ## What a call knows -/

def Take.Point.isBounded : Take.Point → Bool
  | .entering => false
  | .scheduling _ | .cancelling .. => true
  | .waiting _ timeout | .woken _ timeout _ => timeout.isSome

def Reply.grant? (reply : Reply) : Option TimeoutId :=
  (ClockClient.scheduledOf (.ok reply.toMessage)).toOption.map (·.id)

theorem Reply.grant?_of_ok {reply : Reply} {timeout : ScheduledTimeout}
    (h : ClockClient.scheduledOf (.ok reply.toMessage) = .ok timeout) :
    reply.grant? = some timeout.id := by
  rw [grant?, h]
  rfl

theorem Reply.grant?_of_error {reply : Reply} {e : Error}
    (h : ClockClient.scheduledOf (.ok reply.toMessage) = .error e) : reply.grant? = none := by
  rw [grant?, h]
  rfl

theorem Sleep.step_sleeping (s : Sleep) (w : Wakes) (id : TimeoutId) :
    s.step w (.sleeping id) = (w.pending? s.wait).map fun
      | .released => ((w.poll s.wait).2, .goto (.sleeping id))
      | .timeout tick => ((w.poll s.wait).2, .done (.ok tick)) := by
  rw [← Wakes.poll_fst]
  simp only [step, timeoutWait, TimeoutWait.step]
  generalize w.poll s.wait = polled
  obtain ⟨_ | _ | tick, w'⟩ := polled <;> rfl

def Happening.id? : Happening → Option TimeoutId
  | .scheduled _ id | .fired id _ => some id
  | .took .. | .slept .. => none

namespace BlockingCall

/-- Where the thread stands in the program of a semaphore, if it takes that one. -/
def point? (call : BlockingCall) (i : Nat) : Option Take.Point :=
  match call.task with
  | .take j _ p => if j = i then some p else none
  | .sleep .. => none

/-- The timeout that the call is about to wait for, waits for or has waited for. -/
def named? (call : BlockingCall) : Option TimeoutId :=
  match call.task with
  | .take _ _ .entering => none
  | .take _ _ (.scheduling _) | .sleep _ _ .scheduling => call.reply.bind Reply.grant?
  | .take _ _ (.waiting _ timeout) | .take _ _ (.woken _ timeout _) => timeout
  | .take _ _ (.cancelling id _) | .sleep _ _ (.sleeping id) => some id

/-- The timeout that can still wake the thread; one whose cancellation was answered cannot. -/
def timer? (call : BlockingCall) : Option TimeoutId :=
  match call.task with
  | .take _ _ (.cancelling id _) => if call.reply.isSome then none else some id
  | _ => call.named?

/-- The wake that the thread has received in this round, next to the timeout it waited for. -/
def heard? (call : BlockingCall) : Option (Option TimeoutId × Wakeup) :=
  match call.task with
  | .take _ _ (.woken _ timeout wake) => some (timeout, wake)
  | .take _ _ (.cancelling id wake) => some (some id, wake)
  | _ => none

/-- Whether a wake comes from the timeout of the call. -/
def IsTimer (call : BlockingCall) (history : List Happening) (wake : Wakeup) : Prop :=
  ∃ id tick, wake = .timeout tick ∧ call.timer? = some id ∧ .fired id tick ∈ history

/-- Whether a wake may be pending. Once the thread is resumed anything may, and will be drained. -/
def Expects (call : BlockingCall) (history : List Happening) (wake : Wakeup) : Prop :=
  match call.task with
  | .take _ _ (.woken ..) | .take _ _ (.cancelling ..) => True
  | .take _ _ (.waiting ..) => wake = .released ∨ call.IsTimer history wake
  | _ => call.IsTimer history wake

def IsAsking (call : BlockingCall) : Prop :=
  (∃ i ms slot, call.task = .take i ms (.scheduling slot)) ∨
    ∃ client ms, call.task = .sleep client ms .scheduling

/-- What the history tells of a call. -/
structure Fits (history : List Happening) (call : BlockingCall) : Prop where
  heard : ∀ timeout tick, call.heard? = some (timeout, .timeout tick) →
    ∃ id, timeout = some id ∧ .fired id tick ∈ history
  owned : ∀ id, call.named? = some id → .scheduled call.number id ∈ history
  bounded : ∀ i ms p, call.task = .take i ms p → p.isBounded = true → 0 < ms

variable {call : BlockingCall} {history : List Happening} {wake : Wakeup} {id : TimeoutId}

theorem named?_of_timer? (h : call.timer? = some id) : call.named? = some id := by
  obtain ⟨number, task, reply⟩ := call
  cases task with
  | sleep client ms p => exact h
  | take i ms p =>
    cases p with
    | cancelling id' wake =>
      simp only [timer?] at h
      split at h
      · cases h
      · exact h
    | entering => exact h
    | scheduling slot => exact h
    | waiting slot timeout => exact h
    | woken slot timeout wake => exact h

theorem IsAsking.timer?_eq (h : call.IsAsking) : call.timer? = call.reply.bind Reply.grant? := by
  rcases h with ⟨i, ms, slot, htask⟩ | ⟨client, ms, htask⟩
  · simp only [timer?, named?, htask]
  · simp only [timer?, named?, htask]

theorem IsAsking.named?_eq (h : call.IsAsking) : call.named? = call.reply.bind Reply.grant? := by
  rcases h with ⟨i, ms, slot, htask⟩ | ⟨client, ms, htask⟩
  · simp only [named?, htask]
  · simp only [named?, htask]

theorem IsAsking.heard?_eq (h : call.IsAsking) : call.heard? = none := by
  rcases h with ⟨i, ms, slot, htask⟩ | ⟨client, ms, htask⟩
  · simp only [heard?, htask]
  · simp only [heard?, htask]

theorem IsAsking.isTimer (h : call.IsAsking) (hexpects : call.Expects history wake) :
    call.IsTimer history wake := by
  rcases h with ⟨i, ms, slot, htask⟩ | ⟨client, ms, htask⟩
  · simpa only [Expects, htask] using hexpects
  · simpa only [Expects, htask] using hexpects

theorem IsTimer.append (news : List Happening) (h : call.IsTimer history wake) :
    call.IsTimer (news ++ history) wake := by
  obtain ⟨id, tick, rfl, htimer, hfired⟩ := h
  exact ⟨id, tick, rfl, htimer, List.mem_append_right _ hfired⟩

theorem Expects.append (news : List Happening) (h : call.Expects history wake) :
    call.Expects (news ++ history) wake := by
  unfold Expects at *
  split at h
  · trivial
  · trivial
  · exact h.imp_right (IsTimer.append news)
  · exact h.append news

theorem Expects.of_isTimer (h : call.IsTimer history wake) : call.Expects history wake := by
  unfold Expects
  split
  · trivial
  · trivial
  · exact Or.inr h
  · exact h

theorem Fits.append (news : List Happening) (h : call.Fits history) :
    call.Fits (news ++ history) := by
  refine ⟨fun timeout tick hheard => ?_, fun id hnamed => ?_, h.bounded⟩
  · obtain ⟨id, htimeout, hfired⟩ := h.heard timeout tick hheard
    exact ⟨id, htimeout, List.mem_append_right _ hfired⟩
  · exact List.mem_append_right _ (h.owned id hnamed)

end BlockingCall

/-! ## What the history tells -/

/-- What is to be said of a happening, given what had happened before: names of timeouts are not used
again, and a timeout fires at most once; a take that timed out was bounded, and a timeout that was
scheduled for it had fired; a sleep ends with the tick at which its timeout fired. -/
def Happening.Explains (older : List Happening) : Happening → Prop
  | .scheduled _ id => ∀ h ∈ older, h.id? ≠ some id
  | .fired id _ => (∃ call, .scheduled call id ∈ older) ∧ ∀ tick, .fired id tick ∉ older
  | .took call timeoutMs outcome => outcome = .error (.refused .timedOut) →
    0 < timeoutMs ∧ ∃ id tick, .scheduled call id ∈ older ∧ .fired id tick ∈ older
  | .slept call outcome => ∀ tick, outcome = .ok tick →
    ∃ id, .scheduled call id ∈ older ∧ .fired id tick ∈ older

/-- Everything in a history is explained by what had happened before. -/
def Explained : List Happening → Prop
  | [] => True
  | h :: older => h.Explains older ∧ Explained older

theorem Explained.explains {newer older : List Happening} {h : Happening}
    (hexplained : Explained (newer ++ h :: older)) : h.Explains older := by
  induction newer with
  | nil => exact hexplained.1
  | cons _ newer ih => exact ih hexplained.2

namespace Ensemble

@[simp] theorem granted_append (news history : List Happening) :
    granted (news ++ history) = granted news + granted history := List.countP_append

theorem granted_mono {earlier later : List Happening} (h : earlier <:+ later) :
    granted earlier ≤ granted later := h.sublist.countP_le

theorem granted_eq_zero {news : List Happening} (h : ∀ x ∈ news, x.id? = none) :
    granted news = 0 := by
  rw [granted, List.countP_eq_zero]
  intro x hx
  have hid := h x hx
  cases x with
  | scheduled call id => cases hid
  | fired id tick => cases hid
  | took call ms outcome => exact Bool.false_ne_true
  | slept call outcome => exact Bool.false_ne_true

end Ensemble

end Osal
