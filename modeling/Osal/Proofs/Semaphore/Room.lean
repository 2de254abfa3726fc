import Osal.Proofs.Semaphore.Places

/-!
# Room to wait

A thread that comes to wait for a semaphore needs a free wait slot. `Semaphore.Manned s place takers`
lists all threads that may be inside a take, and they are no more than there are slots. Then whoever
competes finds a slot, since the others hold at most the rest: no step and no answer ends a take for
want of a slot (`step_of_manned`, `answered_of_manned`). No step adds or removes slots.
-/

namespace Osal

namespace Semaphore

variable {s : Semaphore} {place : NotificationId → Option Take.Point} {k : NotificationId}
  {takers : List NotificationId}

/-- All who are inside a take are on a list that is no longer than the wait queue. -/
structure Manned (s : Semaphore) (place : NotificationId → Option Take.Point)
    (takers : List NotificationId) : Prop where
  listed : ∀ k, (place k).isSome → k ∈ takers
  length_le : takers.length ≤ s.slots.length

theorem Manned.update (h : s.Manned place takers) (hk : (place k).isSome) (p : Option Take.Point)
    (s' : Semaphore) (hslots : s'.slots.length = s.slots.length) :
    s'.Manned (Function.update place k p) takers := by
  refine ⟨fun j hj => ?_, hslots ▸ h.length_le⟩
  by_cases hjk : j = k
  · rw [hjk]
    exact h.listed k hk
  · rw [Function.update_of_ne hjk] at hj
    exact h.listed j hj

theorem mem_parked_iff : k ∈ s.parked ↔ ∃ slot : Nat, s.slots[slot]? = some (some k) := by
  rw [parked, List.mem_filterMap]
  constructor
  · rintro ⟨waiter, hwaiter, rfl⟩
    exact List.mem_iff_getElem?.1 hwaiter
  · rintro ⟨slot, hslot⟩
    exact ⟨some k, List.mem_of_getElem? hslot, rfl⟩

theorem Orderly.eq_of_slots (h : s.Orderly place) {i j : Nat} (hi : s.slots[i]? = some (some k))
    (hj : s.slots[j]? = some (some k)) : i = j := by
  rw [h.slot_iff] at hi hj
  exact Option.some.inj (hi.symm.trans hj)

theorem Orderly.nodup_parked (h : s.Orderly place) : s.parked.Nodup := by
  rw [parked, List.Nodup, List.pairwise_filterMap, List.pairwise_iff_getElem]
  intro i j hi hj hlt k hk k' hk' heq
  have hsame : i = j := by
    refine h.eq_of_slots (k := k) ?_ ?_
    · rw [List.getElem?_eq_getElem hi]
      exact congrArg some hk
    · rw [List.getElem?_eq_getElem hj, heq]
      exact congrArg some hk'
  omega

/-- Who enters finds a slot, as all the others who are inside hold at most the rest. -/
theorem Orderly.exists_freeSlot (h : s.Orderly place) (hmanned : s.Manned place takers)
    (hk : place k = some .entering) : ∃ slot, s.freeSlot? = some slot := by
  cases hfree : s.freeSlot? with
  | some slot => exact ⟨slot, rfl⟩
  | none =>
    have htaken : s.parked.length = s.slots.length := by
      rw [parked, List.filterMap_length_eq_length]
      intro waiter hwaiter
      have hnot := List.findIdx?_eq_none_iff.1 hfree waiter hwaiter
      cases waiter with
      | none => cases hnot
      | some waiter => rfl
    have hout : k ∉ s.parked := by
      intro hmem
      obtain ⟨slot, hslot⟩ := mem_parked_iff.1 hmem
      rw [h.slot_iff, hk] at hslot
      cases hslot
    have hsubset : k :: s.parked ⊆ takers := by
      intro j hj
      refine hmanned.listed j ?_
      rcases List.mem_cons.1 hj with rfl | hj
      · rw [hk]
        rfl
      · obtain ⟨slot, hslot⟩ := mem_parked_iff.1 hj
        obtain ⟨p, hp, -⟩ := Option.bind_eq_some_iff.1 ((h.slot_iff slot j).1 hslot)
        rw [hp]
        rfl
    have hle := (List.nodup_cons.2 ⟨hout, h.nodup_parked⟩).length_le_of_subset hsubset
    have hroom := hmanned.length_le
    rw [List.length_cons] at hle
    omega

end Semaphore

namespace Take

variable {t : Take} {s : Semaphore} {w : Wakes} {place : NotificationId → Option Point}
  {point : Point} {takers : List NotificationId}

def Turn.isOverflow : Turn → Bool
  | .done (.error (.broken _)) => true
  | _ => false

theorem compete_of_room (t : Take) (hroom : ∃ slot, s.freeSlot? = some slot) :
    Turn.isOverflow (t.compete s).2 = false := by
  rcases compete_cases t s with ⟨-, hcompete⟩ | ⟨-, hfull, -⟩ | ⟨-, slot, -, hcompete⟩ |
    ⟨-, -, slot, -, hcompete⟩
  · rw [hcompete]
    rfl
  · obtain ⟨slot, hfree⟩ := hroom
    rw [hfull] at hfree
    cases hfree
  · rw [hcompete]
    rfl
  · rw [hcompete]
    rfl

theorem settle_of_room (t : Take) (w : Wakes) (wake : Wakeup)
    (hroom : ∃ slot, s.freeSlot? = some slot) : Turn.isOverflow (t.settle s w wake).2 = false := by
  rcases settle_cases t s w wake with ⟨tick, -, hsettle⟩ | ⟨-, hsettle⟩
  · rw [hsettle]
    rfl
  · rw [hsettle]
    exact compete_of_room t hroom

theorem step_of_manned (h : s.Orderly place) (hmanned : s.Manned place takers)
    (hp : place t.wait = some point) {next : (Semaphore × Wakes) × Turn}
    (hstep : t.step (s, w) point = some next) : Turn.isOverflow next.2 = false := by
  obtain ⟨⟨s', w'⟩, turn⟩ := next
  rcases step_cases hstep with ⟨rfl, -, -, hcompete | ⟨-, e, -, rfl⟩⟩ |
    ⟨slot, timeout, wake, -, -, -, -, rfl⟩ | ⟨slot, wake, rfl, -, hsettle⟩ |
    ⟨slot, id, wake, -, -, -, -, rfl⟩
  · have hturn := compete_of_room t (h.exists_freeSlot hmanned hp)
    rwa [hcompete] at hturn
  · rfl
  · rfl
  · -- the thread has left its slot when it competes again
    have hvacated := h.vacate hp rfl rfl
    have hstill := hmanned.update (k := t.wait) (by rw [hp]; rfl) (some .entering)
      (s.setSlot slot none) (List.length_set ..)
    have hturn := settle_of_room t w wake
      (hvacated.exists_freeSlot hstill (Function.update_self ..))
    rwa [hsettle] at hturn
  · rfl

theorem answered_of_manned (h : s.Orderly place) (hmanned : s.Manned place takers)
    (hp : place t.wait = some point) (hinside : point.isInside = true)
    (result : CallResult NotificationId) :
    Turn.isOverflow (t.answered s w result point).2 = false := by
  rcases answered_cases hinside t s w result with ⟨slot, timeout, -, -, hanswered⟩ |
    ⟨slot, e, -, -, hanswered⟩ | ⟨id, wake, rfl, hanswered⟩ | ⟨id, wake, e, -, -, hanswered⟩
  · rw [hanswered]
    rfl
  · rw [hanswered]
    rfl
  · have hunlocked := h.unlockAt (p := some .entering) (by rw [hp]; rfl) (by rw [hp]; rfl) rfl
    have hstill := hmanned.update (k := t.wait) (by rw [hp]; rfl) (some .entering)
      { s with locked := false } rfl
    rw [hanswered]
    exact settle_of_room t w wake (hunlocked.exists_freeSlot hstill (Function.update_self ..))
  · rw [hanswered]
    rfl

/-! ### The number of slots -/

@[simp] theorem length_compete (t : Take) (s : Semaphore) : (t.compete s).1.slots.length = s.slots.length := by
  rcases compete_cases t s with ⟨-, hcompete⟩ | ⟨-, -, hcompete⟩ | ⟨-, slot, -, hcompete⟩ |
    ⟨-, -, slot, -, hcompete⟩
  · rw [hcompete]
  · rw [hcompete]
  · rw [hcompete]
    exact List.length_set ..
  · rw [hcompete]
    exact List.length_set ..

@[simp] theorem length_settle (t : Take) (s : Semaphore) (w : Wakes) (wake : Wakeup) :
    (t.settle s w wake).1.1.slots.length = s.slots.length := by
  rcases settle_cases t s w wake with ⟨tick, -, hsettle⟩ | ⟨-, hsettle⟩
  · rw [hsettle]
  · rw [hsettle]
    exact length_compete t s

theorem length_step {next : (Semaphore × Wakes) × Turn} (hstep : t.step (s, w) point = some next) :
    next.1.1.slots.length = s.slots.length := by
  obtain ⟨⟨s', w'⟩, turn⟩ := next
  rcases step_cases hstep with ⟨-, -, -, hcompete | ⟨rfl, e, -, -⟩⟩ |
    ⟨slot, timeout, wake, -, -, rfl, -, -⟩ | ⟨slot, wake, -, -, hsettle⟩ |
    ⟨slot, id, wake, -, -, rfl, -, -⟩
  · have hlength := length_compete t s
    rwa [hcompete] at hlength
  · rfl
  · rfl
  · have hlength := length_settle t (s.setSlot slot none) w wake
    rw [hsettle] at hlength
    exact hlength.trans (List.length_set ..)
  · exact List.length_set ..

theorem length_answered (hinside : point.isInside = true) (t : Take) (s : Semaphore) (w : Wakes)
    (result : CallResult NotificationId) :
    (t.answered s w result point).1.1.slots.length = s.slots.length := by
  rcases answered_cases hinside t s w result with ⟨slot, timeout, -, -, hanswered⟩ |
    ⟨slot, e, -, -, hanswered⟩ | ⟨id, wake, -, hanswered⟩ | ⟨id, wake, e, -, -, hanswered⟩
  · rw [hanswered]
  · rw [hanswered]
    exact List.length_set ..
  · rw [hanswered]
    exact length_settle t { s with locked := false } w wake
  · rw [hanswered]

end Take

end Osal
