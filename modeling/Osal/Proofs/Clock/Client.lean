import Osal.Clock.Client

/-!
# What clients read in replies

A client that asked for a timeout reads it in the reply that grants it. No reply, nor the lack of
one, reads as a timeout that has fired.
-/

namespace Osal

namespace ClockClient

@[simp] theorem scheduledOf_scheduled (id : TimeoutId) (tick : Tick) :
    scheduledOf (.ok (Reply.scheduled id tick).toMessage) = .ok ⟨id, tick⟩ := by
  have hid : TimeoutId.ofWord id.toWord = .ok id := by
    simp [TimeoutId.ofWord]
  have hreply : replyOf .setTimeout (.ok (Reply.scheduled id tick).toMessage) =
      .ok (.scheduled id tick) := by
    simp [replyOf, Reply.toMessage, Reply.ofMessage, Status.ofWord, Status.toWord, Opcode.ofWord,
      Opcode.toWord, Message.arg, Message.tickArg, Message.word?, bind, Except.bind, pure,
      Except.pure, hid]
  rw [scheduledOf, hreply]
  rfl

theorem replyOf_ne_timedOut (opcode : Opcode) (result : CallResult NotificationId) :
    replyOf opcode result ≠ .error .timedOut := by
  unfold replyOf
  split
  · intro h
    cases h
  · split
    · intro h
      cases h
    · intro h
      cases h

theorem scheduledOf_ne_timedOut (result : CallResult NotificationId) :
    scheduledOf result ≠ .error .timedOut := by
  have hreply := replyOf_ne_timedOut .setTimeout result
  unfold scheduledOf
  generalize replyOf .setTimeout result = reply at hreply ⊢
  intro h
  simp only [bind, Except.bind] at h
  split at h
  · cases h
    exact hreply rfl
  · split at h <;> cases h

theorem goneOf_ne_timedOut (id : TimeoutId) (result : CallResult NotificationId) :
    goneOf id result ≠ .error .timedOut := by
  have hreply := replyOf_ne_timedOut .cancelTimeout result
  have hcancelled : cancelledOf id result ≠ .error .timedOut := by
    unfold cancelledOf
    generalize replyOf .cancelTimeout result = reply at hreply ⊢
    intro h
    simp only [bind, Except.bind] at h
    split at h
    · cases h
      exact hreply rfl
    · split at h <;> cases h
  unfold goneOf
  split
  · intro h
    cases h
  · exact hcancelled

end ClockClient

end Osal
