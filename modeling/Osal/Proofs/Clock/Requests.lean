import Osal.Clock.Service
import Osal.Proofs.Clock.Schedule

/-!
# What the clock does with a request

Handling a request takes no time. As long as the tables of the schedule are in lockstep, it changes
nothing, or takes out the timeout to cancel, or adds the timeout that is asked for
(`ClockState.handle_cases`).
-/

namespace Osal

namespace ClockState

variable {c : ClockState} {n : Nat}

@[simp] theorem tick_handle (c : ClockState) (badge : Badge) (request : ClockRequest) :
    (c.handle badge request).2.tick = c.tick := by
  cases request with
  | getTime => rfl
  | setTimeout periodic period wake =>
    simp only [handle]
    split <;> rfl
  | cancelTimeout id =>
    simp only [handle]
    split <;> rfl

theorem reply_cancel (c : ClockState) (badge : Badge) (id : TimeoutId) :
    (c.handle badge (.cancelTimeout id)).1 = .cancelled ∨
      (c.handle badge (.cancelTimeout id)).1 = .failed .failed := by
  simp only [handle]
  split
  · exact Or.inl rfl
  · exact Or.inr rfl

theorem handle_cases (h : c.schedule.Lockstep n) (badge : Badge) (request : ClockRequest) :
    (∃ reply, c.handle badge request = (reply, c) ∧ (∀ id tick, reply ≠ .scheduled id tick) ∧
      ∀ id, request = .cancelTimeout id → ∀ x ∈ c.schedule.pending, x.id ≠ id) ∨
    (∃ id schedule, c.handle badge request = (.cancelled, { c with schedule }) ∧
      request = .cancelTimeout id ∧ schedule.Lockstep n ∧
      schedule.pending = c.schedule.pending.filter fun x => x.id != id) ∨
    (∃ id periodic period wake schedule,
      c.handle badge request = (.scheduled id c.tick, { c with schedule }) ∧
      request = .setTimeout periodic period wake ∧ (n < Schedule.maxGranted →
        schedule.Lockstep (n + 1) ∧ id.cptr.toNat = n + 1 ∧
        schedule.pending = c.schedule.pending ++
          [{ id, requester := badge, periodic, period, nextFire := c.tick + period }])) := by
  cases request with
  | getTime => exact Or.inl ⟨_, rfl, nofun, nofun⟩
  | setTimeout periodic period wake =>
    rcases Nat.lt_or_eq_of_le h.size_le with hroom | hfull
    · obtain ⟨id, s, hok⟩ :=
        Schedule.insert_isOk_of_lt h hroom c.tick badge periodic period wake
      refine Or.inr (Or.inr ⟨id, periodic, period, wake, s, by simp only [handle, hok], rfl,
        fun hn => ?_⟩)
      obtain ⟨s', hinsert, hlock, -, hpending, hname, -⟩ :=
        Schedule.insert_of_lt h hn hroom c.tick badge periodic period wake
      obtain ⟨hid, rfl⟩ := Prod.mk.inj (hok.symm.trans hinsert)
      obtain rfl := Except.ok.inj hid
      exact ⟨hlock, hname, hpending⟩
    · refine Or.inl ⟨.failed .failed, ?_, nofun, nofun⟩
      simp only [handle, Schedule.insert_of_full h hfull]
  | cancelTimeout id =>
    by_cases hid : ∃ x ∈ c.schedule.pending, x.id = id
    · obtain ⟨s, hcancel, hlock, -, hpending, -⟩ := Schedule.cancel_of_mem h hid
      exact Or.inr (Or.inl ⟨id, s, by simp only [handle, hcancel], rfl, hlock, hpending⟩)
    · have habsent : ∀ x ∈ c.schedule.pending, x.id ≠ id := fun x hx heq => hid ⟨x, hx, heq⟩
      refine Or.inl ⟨.failed .failed, ?_, nofun, fun id' heq => ?_⟩
      · simp only [handle, Schedule.cancel_of_notMem h habsent]
      · cases heq
        exact habsent

end ClockState

end Osal
