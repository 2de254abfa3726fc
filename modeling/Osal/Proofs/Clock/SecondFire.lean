import Osal.Proofs.Clock.Fire
import Osal.Proofs.Clock.Punctual

/-!
# A second fire at the same tick

A fire goes through the pending timeouts once, and re-arms a periodic one ahead of the tick at which it
fires: one period after the old deadline or, if that has come too, one period after the tick. The second
reads as ahead as long as the period is neither zero nor more than half the range of ticks.

`fire_leaves_nothing_due`: so nothing is due after a fire, whatever the tick and however it was reached,
and a second fire at that tick changes nothing. Timeouts are told apart by their slots here, so that this
also holds once names come back.
-/

namespace Osal

namespace TimeoutEntry

variable {now : Tick} {e : TimeoutEntry}

theorem isDue_rearm (hpos : 1 ≤ e.period.toNat) (hle : e.period.toNat ≤ 2147483649) :
    (e.rearm now).isDue now = false := by
  have hahead : tickReached now (now + e.period) = false := by
    rw [tickReached_of_lt (toNat_no_ticks now e.period) (by omega)]
    exact decide_eq_false (by omega)
  rw [isDue, rearm]
  cases hnext : tickReached now (e.nextFire + e.period) with
  | true => exact hahead
  | false => exact hnext

theorem isDue_firedAs (hstays : e.staysAt now = true)
    (hperiod : e.periodic = true → 1 ≤ e.period.toNat ∧ e.period.toNat ≤ 2147483649) :
    (e.firedAs now).isDue now = false := by
  rw [firedAs]
  cases hdue : e.isDue now with
  | false => exact hdue
  | true =>
    have hperiodic : e.periodic = true := by simpa [staysAt, hdue] using hstays
    obtain ⟨hpos, hle⟩ := hperiod hperiodic
    rw [hperiodic]
    exact isDue_rearm hpos hle

end TimeoutEntry

namespace Schedule

variable {s s₀ : Schedule} {now : Tick} {wakes : Wakes} {capacity : Nat}

/-- A fire at a tick counts each timeout that is due then, once, and leaves none to a second one. -/
structure FiresOnce (s : Schedule) (wakes : Wakes) (now : Tick) : Prop where
  none_due : ∀ e ∈ (s.fire wakes now).2.1.pending, tickReached now e.nextFire = false
  /-- The entries, the capabilities and the notifications are as the first fire, or somebody after it,
  left them. -/
  again : ∀ wakes', (s.fire wakes now).2.1.fire wakes' now = (0, (s.fire wakes now).2.1, wakes')
  nodup : (s.firedSlots wakes now).Nodup
  count : (s.firedSlots wakes now).length = (s.fire wakes now).1
  counted : ∀ slot e, (slot, e) ∈ s.entries.toList →
    (slot ∈ s.firedSlots wakes now ↔ tickReached now e.nextFire = true)

/-! ## States that can be reached -/

theorem sound_perform (h : ∃ free alloc, s.entries.Sound free alloc) (op : Op) :
    ∃ free alloc, (s.perform op).2.entries.Sound free alloc := by
  cases op with
  | insert now requester periodic period wake =>
    exact (sound_insert h now requester periodic period wake).1
  | cancel id => exact (sound_cancel h id).1
  | fire wakes now => exact sound_fire h wakes now

theorem sound_run (h : ∃ free alloc, s.entries.Sound free alloc) (ops : List Op) :
    ∃ free alloc, (s.run ops).2.entries.Sound free alloc := by
  induction ops generalizing s with
  | nil => exact h
  | cons op ops ih => exact ih (sound_perform h op)

/-! ## Two fires -/

theorem fire_of_none_due (h : ∃ free alloc, s.entries.Sound free alloc)
    (hnone : ∀ e ∈ s.pending, e.isDue now = false) (wakes : Wakes) :
    s.fire wakes now = (0, s, wakes) := by
  obtain ⟨free, alloc, hpool⟩ := h
  have hidle : s.entries.sweep { fired := 0, caps := s.caps, wakes } (fireEntry now) =
      ({ fired := 0, caps := s.caps, wakes }, 0, s.entries) := hpool.sweep_idle fun entry hentry =>
    fireEntry_of_not_due (hnone entry.2 (List.mem_map_of_mem hentry)) _ entry.1
  rw [fire, hidle]

theorem fired_visitList (now : Tick) (f : Firing) (rest : List (Handle × TimeoutEntry)) :
    (Pool.visitList (fireEntry now) f rest).1.fired =
      f.fired + (rest.filter (·.2.isDue now)).length := by
  induction rest generalizing f with
  | nil => rfl
  | cons entry rest ih =>
    simp only [Pool.visitList]
    rw [ih, fired_fireEntry]
    cases hdue : entry.2.isDue now with
    | false => rw [List.filter_cons_of_neg (by simp [hdue]), Bool.toNat_false, Nat.add_zero]
    | true =>
      rw [List.filter_cons_of_pos (by simp [hdue]), List.length_cons, Bool.toNat_true, Nat.add_assoc,
        Nat.add_comm 1]

theorem length_firedSlots (h : ∃ free alloc, s.entries.Sound free alloc) (wakes : Wakes)
    (now : Tick) : (s.firedSlots wakes now).length = (s.fire wakes now).1 := by
  obtain ⟨free, alloc, hpool⟩ := h
  have hstate := (Pool.sweep_spec (fireEntry now) { fired := 0, caps := s.caps, wakes } hpool).state
  rw [firedSlots_eq hpool, List.length_map]
  exact ((congrArg Firing.fired hstate).trans ((fired_visitList ..).trans (Nat.zero_add _))).symm

theorem firesOnce (h : ∃ free alloc, s.entries.Sound free alloc)
    (hperiods : ∀ e ∈ s.pending, e.periodic = true →
      1 ≤ e.period.toNat ∧ e.period.toNat ≤ 2147483649) (wakes : Wakes) (now : Tick) :
    s.FiresOnce wakes now := by
  have hnone : ∀ e ∈ (s.fire wakes now).2.1.pending, e.isDue now = false := fun e he => by
    obtain ⟨e, hmem, hstays, rfl⟩ := (mem_pending_fire h wakes).1 he
    exact TimeoutEntry.isDue_firedAs hstays (hperiods e hmem)
  obtain ⟨free, alloc, hpool⟩ := h
  refine
    { none_due := hnone
      again := fire_of_none_due (sound_fire ⟨free, alloc, hpool⟩ wakes now) hnone
      nodup := ?_
      count := length_firedSlots ⟨free, alloc, hpool⟩ wakes now
      counted := fun slot e he => ?_ }
  · rw [firedSlots_eq hpool]
    exact hpool.nodup_handles.sublist (List.filter_sublist.map _)
  · rw [← List.contains_iff_mem, contains_firedSlots hpool he]
    exact Iff.rfl

/-- A fire in any state that a schedule can get into, at any tick, if no periodic timeout has a period
that is too short or too long. -/
theorem fire_leaves_nothing_due (hmade : ofCapacity capacity = .ok s₀) (ops : List Op)
    (hperiods : ∀ e ∈ (s₀.run ops).2.pending, e.periodic = true →
      1 ≤ e.period.toNat ∧ e.period.toNat ≤ 2147483649) (wakes : Wakes) (now : Tick) :
    (s₀.run ops).2.FiresOnce wakes now :=
  firesOnce (sound_run (lockstep_of_ofCapacity hmade).1.pool ops) hperiods wakes now

/-- The tick is half the range past one deadline, so that the next one is over too; one past the
deadline of the longest period; and more than half the range past a one-shot. -/
theorem fire_leaves_nothing_due_far_ahead :
    let ops : List Op := [.insert 4294967290 7 true 10 0, .insert 0 8 true 2147483649 1,
      .insert 0 9 false 1 2]
    let wakes : Wakes := ⟨#[{}, {}, {}]⟩
    ∃ s₀, ofCapacity 3 = .ok s₀ ∧
      (∀ e ∈ (s₀.run ops).2.pending, e.periodic = true →
        1 ≤ e.period.toNat ∧ e.period.toNat ≤ 2147483649) ∧
      let fired := (s₀.run ops).2.fire wakes 2147483650
      fired.1 = 2 ∧ fired.2.1.pending.map (·.nextFire) = [2147483660, 2, 1] ∧
        fired.2.1.fire fired.2.2 2147483650 = (0, fired.2) := by
  intro ops wakes
  obtain ⟨s₀, hmade⟩ : ∃ s₀, ofCapacity 3 = .ok s₀ := ⟨_, rfl⟩
  have hperiods : ∀ e ∈ (s₀.run ops).2.pending, e.periodic = true →
      1 ≤ e.period.toNat ∧ e.period.toNat ≤ 2147483649 := by
    obtain rfl := Except.ok.inj hmade
    decide +kernel
  have honce := fire_leaves_nothing_due hmade ops hperiods wakes 2147483650
  refine ⟨s₀, hmade, hperiods, ?_, ?_, ?_⟩
  · rw [← honce.count]
    obtain rfl := Except.ok.inj hmade
    decide +kernel
  · obtain rfl := Except.ok.inj hmade
    decide +kernel
  · have hagain := honce.again
    generalize (s₀.run ops).2.fire wakes 2147483650 = fired at hagain ⊢
    exact hagain fired.2.2

end Schedule

end Osal
