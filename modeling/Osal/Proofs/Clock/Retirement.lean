import Osal.Proofs.Clock.Requests
import Osal.Proofs.Clock.Vigil

/-!
# Timeouts that never fire again

A timeout that is neither pending nor about to signal is retired: as long as names last, it never
fires again, whatever happens (`Retired.run`). A cancellation retires its timeout, and so does the fire
of a one-shot, which therefore fires once (`OneShot`).
-/

namespace Osal

namespace Vigil

variable {v v' : Vigil} {n : Nat} {id : TimeoutId} {tick : Tick} {found : Option Wakeup}

@[simp] theorem granted_append (news history : List VigilNews) :
    granted (news ++ history) = granted news + granted history := List.countP_append

theorem granted_mono {earlier later : List VigilNews} (h : earlier <:+ later) :
    granted earlier ≤ granted later := h.sublist.countP_le

theorem run_induction_of_le {p : Vigil → Prop} (hp : ∀ v v', p v → v.Moved v' →
      n + granted v'.history ≤ Schedule.maxGranted → p v') (h : p v) (events : List VigilEvent)
    (hn : n + granted (v.run events).history ≤ Schedule.maxGranted) : p (v.run events) := by
  induction events generalizing v with
  | nil => exact h
  | cons event events ih =>
    have hlater := granted_mono (suffix_run (v.handle event) events)
    exact ih (hp v _ h (moved_handle v event) (Nat.le_trans (Nat.add_le_add_left hlater n) hn)) hn

/-- What an event does to the schedule and to the signals that are about to be sent. -/
inductive Rescheduled (n : Nat) (v v' : Vigil) : Prop where
  | kept (hschedule : v'.clock.schedule = v.clock.schedule)
    (hgranted : granted v'.history = granted v.history) (hout : v'.outgoing <:+ v.outgoing)
  | cancelled (hidle : v'.outgoing = []) (hgranted : granted v'.history = granted v.history)
    (hlock : v'.clock.schedule.Lockstep (n + granted v.history))
    (hpending : ∀ x ∈ v'.clock.schedule.pending, x ∈ v.clock.schedule.pending)
  | granted (x : TimeoutEntry) (hidle : v'.outgoing = [])
    (hgranted : granted v'.history = granted v.history + 1)
    (hlock : v'.clock.schedule.Lockstep (n + granted v.history + 1))
    (hpending : v'.clock.schedule.pending = v.clock.schedule.pending ++ [x])
    (hname : x.id.cptr.toNat = n + granted v.history + 1)
  | fired (now : Tick) (hidle : v.outgoing = [])
    (hgranted : granted v'.history = granted v.history)
    (hlock : v'.clock.schedule.Lockstep (n + granted v.history))
    (hpending : v'.clock.schedule.pending =
      v.clock.schedule.pending.filterMap (TimeoutEntry.afterFire now))
    (hout : v'.outgoing = v.clock.schedule.deliveries now)

theorem Moved.rescheduled (h : v.clock.schedule.Lockstep (n + Vigil.granted v.history))
    (hmoved : v.Moved v') (hn : n + Vigil.granted v'.history ≤ Schedule.maxGranted) :
    Rescheduled n v v' := by
  cases hmoved with
  | idle | listen | skip | hear | finish | close | release =>
    exact .kept rfl rfl List.suffix_rfl
  | answer call tick reply clock hcall hpoint hreply hidle hhandle =>
    rcases ClockState.handle_cases h v.client.badge (.cancelTimeout call.id) with
      ⟨reply', heq, -⟩ | ⟨id, schedule, heq, -, hlock, hpending⟩ | ⟨_, _, _, _, _, -, hne, -⟩
    · obtain ⟨rfl, rfl⟩ := Prod.mk.inj (hhandle.symm.trans heq)
      exact .kept rfl rfl List.suffix_rfl
    · obtain ⟨rfl, rfl⟩ := Prod.mk.inj (hhandle.symm.trans heq)
      exact .cancelled hidle rfl hlock fun x hx => (List.mem_filter.1 (hpending ▸ hx)).1
    · cases hne
  | request badge request reply clock hidle hhandle =>
    rcases ClockState.handle_cases h badge request with ⟨reply', heq, hnone, -⟩ |
      ⟨id, schedule, heq, -, hlock, hpending⟩ |
      ⟨id, periodic, period, wake, schedule, heq, -, hgrant⟩
    · obtain ⟨rfl, rfl⟩ := Prod.mk.inj (hhandle.symm.trans heq)
      have hnews : grantNews reply = [] := by
        cases reply with
        | scheduled id tick => exact absurd rfl (hnone id tick)
        | _ => rfl
      exact .kept rfl (by rw [hnews]; rfl) List.suffix_rfl
    · obtain ⟨rfl, rfl⟩ := Prod.mk.inj (hhandle.symm.trans heq)
      exact .cancelled hidle rfl hlock fun x hx => (List.mem_filter.1 (hpending ▸ hx)).1
    · obtain ⟨rfl, rfl⟩ := Prod.mk.inj (hhandle.symm.trans heq)
      have hgranted : Vigil.granted (grantNews (.scheduled id v.clock.tick) ++ v.history) =
          Vigil.granted v.history + 1 := (granted_append ..).trans (Nat.add_comm ..)
      simp only [hgranted] at hn
      obtain ⟨hlock, hname, hpending⟩ := hgrant (by omega)
      exact .granted _ hidle hgranted hlock hpending hname
  | tick period hidle =>
    obtain ⟨s, hfire, hlock, -, hpending, -⟩ :=
      Schedule.fire_spec h v.wakes (v.clock.tick + period)
    have hclock : ((v.clock.advance period).fireDue v.wakes).1.schedule = s := by
      simp only [ClockState.fireDue, ClockState.advance, hfire]
    exact .fired _ hidle rfl (hclock ▸ hlock) (hclock ▸ hpending) rfl
  | ring id outgoing hout => exact .kept rfl rfl (hout ▸ List.suffix_cons ..)
  | elsewhere id k outgoing hk hout => exact .kept rfl rfl (hout ▸ List.suffix_cons ..)

theorem Rescheduled.lockstep (hmoved : Rescheduled n v v')
    (h : v.clock.schedule.Lockstep (n + Vigil.granted v.history)) :
    v'.clock.schedule.Lockstep (n + Vigil.granted v'.history) := by
  cases hmoved with
  | kept hschedule hgranted => rwa [hschedule, hgranted]
  | cancelled hidle hgranted hlock => rwa [hgranted]
  | granted x hidle hgranted hlock => rwa [hgranted]
  | fired now hidle hgranted hlock => rwa [hgranted]

theorem Rescheduled.pending_of_known (hmoved : Rescheduled n v v')
    (hknown : id.cptr.toNat ≤ n + Vigil.granted v.history) {y : TimeoutEntry}
    (hy : y ∈ v'.clock.schedule.pending) (hid : y.id = id) :
    ∃ x ∈ v.clock.schedule.pending, x.id = id ∧ x.periodic = y.periodic := by
  cases hmoved with
  | kept hschedule => exact ⟨y, hschedule ▸ hy, hid, rfl⟩
  | cancelled hidle hgranted hlock hpending => exact ⟨y, hpending y hy, hid, rfl⟩
  | granted x hidle hgranted hlock hpending hname =>
    rcases List.mem_append.1 (hpending ▸ hy) with hold | hnew
    · exact ⟨y, hold, hid, rfl⟩
    · -- the clock gives out each name once
      obtain rfl := List.mem_singleton.1 hnew
      rw [← hid, hname] at hknown
      omega
  | fired now hidle hgranted hlock hpending =>
    obtain ⟨x, hx, hafter⟩ := List.mem_filterMap.1 (hpending ▸ hy)
    obtain ⟨hname, -, hperiodic, -⟩ := TimeoutEntry.id_of_afterFire hafter
    exact ⟨x, hx, hname ▸ hid, hperiodic.symm⟩

/-- What an event adds to the history. Only the timeout fires that was the next to signal the bell. -/
theorem Moved.news (hmoved : v.Moved v') : ∃ news, v'.history = news ++ v.history ∧
    ∀ id tick found, .fired id tick found ∈ news →
      v.outgoing = (id, v.bell) :: v'.outgoing ∧ v'.clock = v.clock := by
  cases hmoved with
  | idle | listen | tick | elsewhere => exact ⟨[], rfl, nofun⟩
  | skip | hear | answer | close | release => exact ⟨[_], rfl, by simp⟩
  | finish => exact ⟨[_, _], rfl, by simp⟩
  | request badge request reply =>
    refine ⟨grantNews reply, rfl, fun id tick found hmem => ?_⟩
    cases reply <;> simp [grantNews] at hmem
  | ring id outgoing hout =>
    refine ⟨[_], rfl, fun id' tick found hmem => ?_⟩
    cases List.mem_singleton.1 hmem
    exact ⟨hout, rfl⟩

/-! ## Timeouts that are gone -/

/-- A timeout is gone, and its name will not be given to another one. -/
structure Retired (n : Nat) (id : TimeoutId) (v : Vigil) : Prop where
  lockstep : v.clock.schedule.Lockstep (n + granted v.history)
  known : id.cptr.toNat ≤ n + granted v.history
  pending : ∀ x ∈ v.clock.schedule.pending, x.id ≠ id
  outgoing : ∀ k, (id, k) ∉ v.outgoing

theorem Retired.moved (h : Retired n id v) (hmoved : v.Moved v')
    (hn : n + granted v'.history ≤ Schedule.maxGranted) : Retired n id v' := by
  have hre := hmoved.rescheduled h.lockstep hn
  refine ⟨hre.lockstep h.lockstep, ?_, ?_, ?_⟩
  · exact Nat.le_trans h.known (Nat.add_le_add_left (granted_mono hmoved.suffix) n)
  · intro y hy hid
    obtain ⟨x, hx, hold, -⟩ := hre.pending_of_known h.known hy hid
    exact h.pending x hx hold
  · intro k hk
    cases hre with
    | kept hschedule hgranted hout => exact h.outgoing k (hout.subset hk)
    | cancelled hidle => rw [hidle] at hk; cases hk
    | granted x hidle => rw [hidle] at hk; cases hk
    | fired now hidle hgranted hlock hpending hout =>
      obtain ⟨x, hx, -, heq, -⟩ := Schedule.mem_deliveries.1 (hout ▸ hk)
      exact h.pending x hx heq

theorem Retired.run (h : Retired n id v) (events : List VigilEvent)
    (hn : n + granted (v.run events).history ≤ Schedule.maxGranted) :
    Retired n id (v.run events) ∧ ∃ news, (v.run events).history = news ++ v.history ∧
      ∀ tick found, .fired id tick found ∉ news := by
  refine run_induction_of_le (p := fun v' => Retired n id v' ∧ ∃ news,
    v'.history = news ++ v.history ∧ ∀ tick found, .fired id tick found ∉ news) ?_
    ⟨h, [], rfl, nofun⟩ events hn
  rintro v₁ v₂ ⟨hretired, newer, hnewer, hquiet⟩ hmoved hn
  obtain ⟨news, hnews, hfired⟩ := hmoved.news
  refine ⟨hretired.moved hmoved hn, news ++ newer, ?_, fun tick found hmem => ?_⟩
  · rw [hnews, hnewer, List.append_assoc]
  · rcases List.mem_append.1 hmem with hmem | hmem
    · exact hretired.outgoing v₁.bell ((hfired id tick found hmem).1 ▸ List.mem_cons_self)
    · exact hquiet tick found hmem

/-! ## Timeouts that fire once -/

/-- A one-shot is pending, or about to signal, or gone for good, and it fired only if it is gone. -/
structure OneShot (n : Nat) (id : TimeoutId) (v : Vigil) : Prop where
  lockstep : v.clock.schedule.Lockstep (n + granted v.history)
  known : id.cptr.toNat ≤ n + granted v.history
  once : ∀ x ∈ v.clock.schedule.pending, x.id = id → x.periodic = false
  distinct : (v.outgoing.map (·.1)).Nodup
  leaving : ∀ k, (id, k) ∈ v.outgoing → ∀ x ∈ v.clock.schedule.pending, x.id ≠ id
  retired : ∀ tick found, .fired id tick found ∈ v.history → Retired n id v

theorem OneShot.ne_of_fired (h : OneShot n id v) {now : Tick} {k : NotificationId}
    (hk : (id, k) ∈ v.clock.schedule.deliveries now) :
    ∀ x ∈ v.clock.schedule.pending.filterMap (TimeoutEntry.afterFire now), x.id ≠ id := by
  intro x hx heq
  obtain ⟨y, hy, hafter⟩ := List.mem_filterMap.1 hx
  obtain ⟨z, hz, hdue, hid, -⟩ := Schedule.mem_deliveries.1 hk
  have hname : y.id = id := (TimeoutEntry.id_of_afterFire hafter).1 ▸ heq
  obtain rfl : y = z :=
    List.inj_on_of_nodup_map h.lockstep.ids_nodup hy hz (hname.trans hid.symm)
  simp [TimeoutEntry.afterFire, hdue, h.once y hy hname] at hafter

theorem OneShot.moved (h : OneShot n id v) (hmoved : v.Moved v')
    (hn : n + granted v'.history ≤ Schedule.maxGranted) : OneShot n id v' := by
  have hre := hmoved.rescheduled h.lockstep hn
  have hlock := hre.lockstep h.lockstep
  have hknown : id.cptr.toNat ≤ n + granted v'.history :=
    Nat.le_trans h.known (Nat.add_le_add_left (granted_mono hmoved.suffix) n)
  refine ⟨hlock, hknown, ?_, ?_, ?_, ?_⟩
  · intro y hy hid
    obtain ⟨x, hx, hold, hperiodic⟩ := hre.pending_of_known h.known hy hid
    exact hperiodic ▸ h.once x hx hold
  · cases hre with
    | kept hschedule hgranted hout => exact h.distinct.sublist (hout.sublist.map _)
    | cancelled hidle => rw [hidle]; exact List.nodup_nil
    | granted x hidle => rw [hidle]; exact List.nodup_nil
    | fired now hidle hgranted hlock hpending hout =>
      have hdue : ((v.clock.schedule.due now).map (·.id)).Nodup :=
        h.lockstep.ids_nodup.sublist (List.filter_sublist.map _)
      exact hout ▸ hdue.sublist Schedule.map_fst_deliveries
  · intro k hk
    cases hre with
    | kept hschedule hgranted hout => exact hschedule ▸ h.leaving k (hout.subset hk)
    | cancelled hidle => rw [hidle] at hk; cases hk
    | granted x hidle => rw [hidle] at hk; cases hk
    | fired now hidle hgranted hlock hpending hout => exact hpending ▸ h.ne_of_fired (hout ▸ hk)
  · intro tick found hmem
    obtain ⟨news, hnews, hfired⟩ := hmoved.news
    rcases List.mem_append.1 (hnews ▸ hmem) with hnew | hold
    · -- the signal was the last one that the timeout had to send
      obtain ⟨hout, hclock⟩ := hfired id tick found hnew
      have hdistinct := h.distinct
      rw [hout, List.map_cons, List.nodup_cons] at hdistinct
      refine ⟨hlock, hknown, ?_, fun k hk => hdistinct.1 (List.mem_map.2 ⟨_, hk, rfl⟩)⟩
      exact hclock ▸ h.leaving v.bell (hout ▸ List.mem_cons_self)
    · exact (h.retired tick found hold).moved hmoved hn

theorem OneShot.run (h : OneShot n id v) (events : List VigilEvent)
    (hn : n + granted (v.run events).history ≤ Schedule.maxGranted) :
    OneShot n id (v.run events) :=
  run_induction_of_le (fun _ _ h hmoved hn => h.moved hmoved hn) h events hn

end Vigil

end Osal
