import Osal.Proofs.Clock.Fire
import Osal.Proofs.Clock.UnboundedTime

/-!
# The beat of a periodic timeout

A clock has an interrupt every so often, and a periodic timeout is re-armed at the first one that finds
it due. `Beat` says at which interrupts that is, and where the deadline lies then: a period that is no
shorter than that of the interrupts keeps its beat, counted from the moment it was set, and a shorter
one is due at every interrupt. Time is unbounded here; ticks come in where an entry is fired.
-/

namespace Osal

def interruptTimes (interval count : Nat) : List Nat := (List.range' 1 count).map (interval * ·)

theorem interruptTimes_succ (interval count : Nat) :
    interruptTimes interval (count + 1) =
      interruptTimes interval count ++ [interval * count + interval] := by
  rw [interruptTimes, List.range'_1_concat, List.map_append, interruptTimes, Nat.add_comm 1 count]
  rfl

theorem le_of_mem_interruptTimes {interval count time : Nat}
    (h : time ∈ interruptTimes interval count) : time ≤ interval * count := by
  obtain ⟨n, hn, rfl⟩ := List.mem_map.1 h
  have hle := (List.mem_range'_1.1 hn).2
  exact Nat.mul_le_mul_left interval (by omega)

/-- When a timeout that was set at a time has fired during a number of interrupts, and what its next
deadline is. -/
structure Beat (interval period start count : Nat) (fires : List Nat) (deadline : Nat) : Prop where
  begun : start ≤ interval * count
  ahead : interval * count < deadline
  near : deadline ≤ interval * count + period
  /-- Each fire is at the first interrupt that is not before the time meant for it. -/
  steady : interval ≤ period → deadline = start + (fires.length + 1) * period ∧
    ∀ k, 1 ≤ k → fires[k - 1]? = (interruptTimes interval count).find? (start + k * period ≤ ·)
  /-- A period that is too short for the interrupts fires at each of them. -/
  pressed : period < interval → fires = (interruptTimes interval count).filter (start < ·)

/-- The deadline after an interrupt at a time: one period on if it has come, or one period from now if
that has come too. -/
def nextDeadline (period time deadline : Nat) : Nat :=
  if deadline ≤ time then
    if time < deadline + period then deadline + period else time + period
  else deadline

namespace Beat

variable {interval period start count deadline : Nat} {fires : List Nat}

theorem first (hperiod : 1 ≤ period) :
    Beat interval period (interval * count) count [] (interval * count + period) := by
  refine ⟨Nat.le_refl _, by omega, Nat.le_refl _, fun _ => ⟨by simp, fun k hk => ?_⟩, fun _ => ?_⟩
  · refine (List.find?_eq_none.2 fun time htime => ?_).symm
    have hle := le_of_mem_interruptTimes htime
    have hpos : 1 * 1 ≤ k * period := Nat.mul_le_mul hk hperiod
    simp only [decide_eq_true_eq]
    omega
  · refine (List.filter_eq_nil_iff.2 fun time htime => ?_).symm
    have hle := le_of_mem_interruptTimes htime
    simp only [decide_eq_true_eq]
    omega

theorem le_meant (h : Beat interval period start count fires deadline) (hlong : interval ≤ period)
    {k : Nat} (hk : fires.length < k) : deadline ≤ start + k * period := by
  have hle : (fires.length + 1) * period ≤ k * period := Nat.mul_le_mul_right period hk
  rw [(h.steady hlong).1]
  exact Nat.add_le_add_left hle start

theorem find?_succ (h : Beat interval period start count fires deadline) (hlong : interval ≤ period)
    {k : Nat} (hk : 1 ≤ k) :
    (interruptTimes interval (count + 1)).find? (start + k * period ≤ ·) =
      fires[k - 1]?.or ([interval * count + interval].find? (start + k * period ≤ ·)) := by
  rw [interruptTimes_succ, List.find?_append, (h.steady hlong).2 k hk]

theorem pass (h : Beat interval period start count fires deadline)
    (hearly : interval * count + interval < deadline) :
    Beat interval period start (count + 1) fires deadline := by
  have hbegun := h.begun
  have hnear := h.near
  refine ⟨?_, ?_, ?_, fun hlong => ⟨(h.steady hlong).1, fun k hk => ?_⟩, fun hshort => ?_⟩
  · rw [Nat.mul_succ]
    omega
  · rw [Nat.mul_succ]
    exact hearly
  · rw [Nat.mul_succ]
    omega
  · rw [h.find?_succ hlong hk]
    cases hfire : fires[k - 1]? with
    | some time => rfl
    | none =>
      have hlen := List.getElem?_eq_none_iff.1 hfire
      have hmeant := h.le_meant hlong (k := k) (by omega)
      rw [Option.none_or, List.find?_singleton, decide_eq_false (by omega)]
      rfl
  · omega

theorem fire (h : Beat interval period start count fires deadline) {time : Nat}
    (htime : time = interval * count + interval) (hdue : deadline ≤ time) (hperiod : 1 ≤ period) :
    Beat interval period start (count + 1) (fires ++ [time]) (nextDeadline period time deadline) := by
  rw [nextDeadline, if_pos hdue]
  have hbegun := h.begun
  have hahead := h.ahead
  have hnear := h.near
  refine ⟨?_, ?_, ?_, fun hlong => ?_, fun hshort => ?_⟩
  · rw [Nat.mul_succ]
    omega
  · rw [Nat.mul_succ]
    split <;> omega
  · rw [Nat.mul_succ]
    split <;> omega
  · -- a long period cannot be over already, so the deadline moves on by exactly one
    have hnext : (if time < deadline + period then deadline + period else time + period) =
        start + ((fires ++ [time]).length + 1) * period := by
      rw [if_pos (by omega), (h.steady hlong).1, List.length_append, List.length_singleton,
        Nat.add_assoc, ← Nat.succ_mul]
    refine ⟨hnext, fun k hk => ?_⟩
    rw [h.find?_succ hlong hk, ← htime, List.find?_singleton]
    rcases Nat.lt_trichotomy (k - 1) fires.length with hlt | heq | hgt
    · rw [List.getElem?_append_left hlt, List.getElem?_eq_getElem hlt]
      rfl
    · obtain rfl : k = fires.length + 1 := by omega
      have hge := Nat.le_of_eq heq.symm
      rw [List.getElem?_append_right hge, heq, Nat.sub_self,
        List.getElem?_eq_none (Nat.le_refl _), ← (h.steady hlong).1, decide_eq_true hdue]
      rfl
    · have hlater : (fires.length + 1) * period + period ≤ k * period := by
        rw [← Nat.succ_mul]
        exact Nat.mul_le_mul_right period (by omega)
      have hlate : time < start + k * period := by
        have hmeant := (h.steady hlong).1
        omega
      have hge := Nat.le_of_lt hgt
      rw [List.getElem?_append_right hge, List.getElem?_eq_none hge,
        List.getElem?_eq_none (Nat.le_sub_of_add_le' hgt), decide_eq_false (by omega)]
      rfl
  · rw [interruptTimes_succ, List.filter_append, ← h.pressed hshort, ← htime,
      List.filter_singleton, decide_eq_true (by omega)]
    rfl

theorem interrupt (h : Beat interval period start count fires deadline) {time : Nat}
    (htime : time = interval * count + interval) (hperiod : 1 ≤ period) :
    Beat interval period start (count + 1)
      (fires ++ List.replicate (if deadline ≤ time then 1 else 0) time)
      (nextDeadline period time deadline) := by
  by_cases hdue : deadline ≤ time
  · rw [if_pos hdue]
    exact h.fire htime hdue hperiod
  · rw [if_neg hdue, nextDeadline, if_neg hdue, List.replicate_zero, List.append_nil]
    exact h.pass (htime ▸ Nat.not_le.1 hdue)

/-! ## Entries -/

/-- The entry of a timeout with its next deadline in unbounded time. -/
def entryAt (made : TimeoutEntry) (deadline : Nat) : TimeoutEntry :=
  { made with nextFire := .ofNat deadline }

variable {made : TimeoutEntry} {time : Nat}

/-- At the next interrupt the tick tells whether the deadline has come. -/
theorem isDue_entryAt (h : Beat interval period start count fires deadline) (made : TimeoutEntry)
    (hinterval : interval ≤ 2147483646) (hperiod : period ≤ 2147483648)
    (htime : time = interval * count + interval) :
    (entryAt made deadline).isDue (.ofNat time) = decide (deadline ≤ time) := by
  have hnear := h.near
  exact Schedule.tickReached_ofNat (Nat.le_of_lt h.ahead) (by omega) (by omega)

theorem firedAs_entryAt (h : Beat interval made.period.toNat start count fires deadline)
    (hinterval : interval ≤ 2147483646) (hperiod : made.period.toNat ≤ 2147483648)
    (hperiodic : made.periodic = true) (htime : time = interval * count + interval) :
    (entryAt made deadline).firedAs (.ofNat time) =
      entryAt made (nextDeadline made.period.toNat time deadline) := by
  have hdue : (entryAt made deadline).isDue (.ofNat time) = decide (deadline ≤ time) :=
    h.isDue_entryAt made hinterval hperiod htime
  rw [TimeoutEntry.firedAs, hdue, nextDeadline]
  by_cases hreached : deadline ≤ time
  · have hlast : interval * count ≤ deadline + made.period.toNat :=
      Nat.le_add_right_of_le (Nat.le_of_lt h.ahead)
    have hnext : tickReached (.ofNat time) (.ofNat (deadline + made.period.toNat)) =
        decide (deadline + made.period.toNat ≤ time) :=
      Schedule.tickReached_ofNat hlast (by omega) (by omega)
    have hsum : UInt32.ofNat deadline + made.period = .ofNat (deadline + made.period.toNat) := by
      rw [UInt32.ofNat_add, UInt32.ofNat_toNat]
    have hrestart : UInt32.ofNat time + made.period = .ofNat (time + made.period.toNat) := by
      rw [UInt32.ofNat_add, UInt32.ofNat_toNat]
    have hrearm : ((entryAt made deadline).rearm (.ofNat time)).nextFire =
        .ofNat (if time < deadline + made.period.toNat then deadline + made.period.toNat
          else time + made.period.toNat) := by
      show (if tickReached (.ofNat time) (.ofNat deadline + made.period) then
        UInt32.ofNat time + made.period else .ofNat deadline + made.period) = _
      rw [hsum, hrestart, hnext]
      by_cases hover : deadline + made.period.toNat ≤ time
      · rw [decide_eq_true hover, if_pos rfl, if_neg (Nat.not_lt.2 hover)]
      · rw [decide_eq_false hover, if_neg Bool.false_ne_true, if_pos (Nat.not_le.1 hover)]
    rw [decide_eq_true hreached, if_pos hreached, hrearm]
    exact if_pos hperiodic
  · rw [decide_eq_false hreached, if_neg hreached]
    rfl

end Beat

end Osal
