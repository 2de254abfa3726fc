import Osal.Notification

/-!
# What signalling and polling change

Every operation changes the notification that it names and no other, and none revives or closes one.
A signal leaves a wake unless one is pending already; a poll and a drain leave none.
-/

namespace Osal

@[simp] theorem Notification.signal_of_pending {α : Type} {n : Notification α}
    (h : n.isPending = true) (payload : α) : (n.signal payload).2 = n := by
  obtain ⟨_ | wake, live⟩ := n
  · cases h
  · cases live <;> rfl

@[simp] theorem Notification.signal_of_closed {α : Type} {n : Notification α} (h : n.live = false)
    (payload : α) : (n.signal payload).2 = n := by
  rw [signal, h]
  rfl

@[simp] theorem Notification.signal_of_empty {α : Type} {n : Notification α} (hlive : n.live = true)
    (hempty : n.isPending = false) (payload : α) :
    (n.signal payload).2 = { pending := some payload } := by
  obtain ⟨_ | wake, live⟩ := n
  · obtain rfl : live = true := hlive
    rfl
  · cases hempty

@[simp] theorem Notification.live_signal {α : Type} (n : Notification α) (payload : α) :
    (n.signal payload).2.live = n.live := by
  unfold signal
  split <;> rfl

@[simp] theorem Notification.signal_signal {α : Type} (n : Notification α) (payload : α) :
    ((n.signal payload).2.signal payload).2 = (n.signal payload).2 := by
  obtain ⟨pending, live⟩ := n
  cases pending <;> cases live <;> rfl

namespace Wakes

variable {w : Wakes} {i j : NotificationId} {wake wake' : Wakeup}

/-- Whether a notification has a waiting side; one that was never made has none. -/
def IsLive (w : Wakes) (i : NotificationId) : Prop := (w.get i).live = true

def pending? (w : Wakes) (i : NotificationId) : Option Wakeup := (w.get i).pending

theorem isPending_eq : w.isPending i = (w.pending? i).isSome := rfl

@[simp] theorem size_set (n : Notification Wakeup) : (w.set i n).size = w.size :=
  Array.size_setIfInBounds ..

theorem get_of_size_le (h : w.size ≤ i) : w.get i = { live := false } := by
  have hi : ¬ i < w.cells.size := Nat.not_lt.2 h
  simp [get, Array.getD, hi]

@[simp] theorem get_set_ne (n : Notification Wakeup) (h : j ≠ i) : (w.set i n).get j = w.get j := by
  simp [get, set, Array.getD_eq_getD_getElem?, h.symm]

-- a closed notification is also read where there is nothing to write to
theorem get_set_self {n : Notification Wakeup} (h : w.size ≤ i → n = { live := false }) :
    (w.set i n).get i = n := by
  rcases Nat.lt_or_ge i w.size with hlt | hge
  · have hi : i < w.cells.size := hlt
    simp [get, set, Array.getD_eq_getD_getElem?, hi]
  · rw [h hge]
    exact get_of_size_le (by simpa using hge)

theorem isLive_ofCount {n : Nat} (h : i < n) : (ofCount n).IsLive i := by
  simp [IsLive, get, ofCount, Array.getD, h]

@[simp] theorem pending?_ofCount (n : Nat) : (ofCount n).pending? i = none := by
  by_cases h : i < n <;> simp [pending?, get, ofCount, Array.getD, h]

/-! ## Signals -/

@[simp] theorem get_signal_ne (h : j ≠ i) : (w.signal i wake).2.get j = w.get j := get_set_ne _ h

@[simp] theorem get_signal_self : (w.signal i wake).2.get i = ((w.get i).signal wake).2 := by
  refine get_set_self fun hge => ?_
  rw [get_of_size_le hge]
  rfl

@[simp] theorem size_signal : (w.signal i wake).2.size = w.size := size_set _

@[simp] theorem isLive_signal : (w.signal i wake).2.IsLive j ↔ w.IsLive j := by
  by_cases hj : j = i
  · subst hj
    simp [IsLive]
  · simp [IsLive, hj]

@[simp] theorem pending?_signal_ne (h : j ≠ i) : (w.signal i wake).2.pending? j = w.pending? j := by
  simp [pending?, h]

@[simp] theorem pending?_signal_self (h : w.IsLive i) :
    (w.signal i wake).2.pending? i = some ((w.pending? i).getD wake) := by
  have hlive : (w.get i).live = true := h
  unfold pending?
  rw [get_signal_self, Notification.signal, hlive]
  cases hpending : (w.get i).pending <;> simp [hpending]

theorem pending?_signal (h : (w.signal i wake).2.pending? j = some wake') :
    w.pending? j = some wake' ∨ j = i ∧ wake' = wake := by
  unfold pending? at *
  by_cases hj : j = i
  · subst hj
    rw [get_signal_self, Notification.signal] at h
    split at h
    · exact Or.inr ⟨rfl, (Option.some.inj h).symm⟩
    · exact Or.inl h
  · exact Or.inl (by simpa [hj] using h)

theorem isPending_signal (h : w.isPending j = true) : (w.signal i wake).2.isPending j = true := by
  unfold isPending at *
  by_cases hj : j = i
  · subst hj
    rw [get_signal_self, Notification.signal]
    split
    · rfl
    · exact h
  · simpa [hj] using h

/-! ## Signalling several -/

variable {ids : List NotificationId}

@[simp] theorem signalAll_nil : w.signalAll [] wake = w := rfl

@[simp] theorem signalAll_cons :
    w.signalAll (i :: ids) wake = (w.signal i wake).2.signalAll ids wake := rfl

@[simp] theorem size_signalAll : (w.signalAll ids wake).size = w.size := by
  induction ids generalizing w with
  | nil => rfl
  | cons i ids ih => simp [ih]

@[simp] theorem isLive_signalAll : (w.signalAll ids wake).IsLive j ↔ w.IsLive j := by
  induction ids generalizing w with
  | nil => exact Iff.rfl
  | cons i ids ih => simp [ih]

theorem pending?_signalAll (h : (w.signalAll ids wake).pending? j = some wake') :
    w.pending? j = some wake' ∨ j ∈ ids ∧ wake' = wake := by
  induction ids generalizing w with
  | nil => exact Or.inl h
  | cons i ids ih =>
    rcases ih h with hearlier | ⟨hmem, heq⟩
    · rcases pending?_signal hearlier with hold | ⟨rfl, heq⟩
      · exact Or.inl hold
      · exact Or.inr ⟨List.mem_cons_self, heq⟩
    · exact Or.inr ⟨List.mem_cons_of_mem _ hmem, heq⟩

theorem isPending_signalAll (h : w.isPending j = true) :
    (w.signalAll ids wake).isPending j = true := by
  induction ids generalizing w with
  | nil => exact h
  | cons i ids ih => exact ih (isPending_signal h)

theorem isPending_signalAll_of_mem (hlive : w.IsLive j) (h : j ∈ ids) :
    (w.signalAll ids wake).isPending j = true := by
  induction ids generalizing w with
  | nil => cases h
  | cons i ids ih =>
    rw [signalAll_cons]
    rcases List.mem_cons.1 h with rfl | h
    · apply isPending_signalAll
      simp [isPending_eq, hlive]
    · exact ih (by simpa using hlive) h

theorem get_signalAll :
    (w.signalAll ids wake).get j = if j ∈ ids then ((w.get j).signal wake).2 else w.get j := by
  induction ids generalizing w with
  | nil => rfl
  | cons i ids ih =>
    rw [signalAll_cons, ih]
    by_cases hj : j = i
    · -- after the first signal the others are coalesced
      subst hj
      simp
    · simp [hj]

/-! ## Polls and drains -/

@[simp] theorem poll_fst : (w.poll i).1 = w.pending? i := rfl

@[simp] theorem drain_snd : (w.drain i).2 = (w.poll i).2 := rfl

@[simp] theorem get_poll_ne (h : j ≠ i) : (w.poll i).2.get j = w.get j := get_set_ne _ h

@[simp] theorem get_poll_self : (w.poll i).2.get i = { w.get i with pending := none } := by
  refine get_set_self fun hge => ?_
  rw [get_of_size_le hge]

@[simp] theorem pending?_poll_self : (w.poll i).2.pending? i = none := by simp [pending?]

@[simp] theorem pending?_poll_ne (h : j ≠ i) : (w.poll i).2.pending? j = w.pending? j := by
  simp [pending?, h]

@[simp] theorem size_poll : (w.poll i).2.size = w.size := size_set _

@[simp] theorem isLive_poll : (w.poll i).2.IsLive j ↔ w.IsLive j := by
  by_cases hj : j = i
  · subst hj
    simp [IsLive]
  · simp [IsLive, hj]

end Wakes

end Osal
