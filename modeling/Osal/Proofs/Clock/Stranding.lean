import Osal.Proofs.Clock.Retirement

/-!
# Timeouts that a release swallows

A thread that waits for a timeout skips releases, but the bell has room for one wake. A timeout that
fires while a release is pending leaves nothing behind, and a one-shot does not fire again.
`stranded_iff`: a thread misses its timeout just if every timeout that signalled the bell so far found a
release in it, and then it waits until another timeout finds none.
-/

namespace Osal

namespace Vigil

/-- The timeout that the thread waits for has fired, and the thread neither heard a timeout nor will
hear one from what is in the bell. -/
structure Stranded (v : Vigil) (id : TimeoutId) : Prop where
  listening : ∃ call, v.call = some call ∧ call.id = id ∧ call.point = .listening
  fired : ∃ tick found, .fired id tick found ∈ v.history
  unheard : ∀ tick, .heard (.timeout tick) ∉ v.history
  bell : ∀ tick, v.wakes.pending? v.bell ≠ some (.timeout tick)

/-- The thread has heard a timeout, or it is where it began. -/
def Attends (id : TimeoutId) (cancel : Bool) (v : Vigil) : Prop :=
  (∃ tick, .heard (.timeout tick) ∈ v.history) ∨ v.call = some { id, cancel }

variable {v v' : Vigil} {n : Nat} {id : TimeoutId} {cancel : Bool} {history : List VigilNews}

theorem Attends.moved (h : Attends id cancel v) (hmoved : v.Moved v') : Attends id cancel v' := by
  rcases h with ⟨tick, hheard⟩ | hcall
  · exact Or.inl ⟨tick, hmoved.suffix.subset hheard⟩
  · cases hmoved with
    | idle | skip | request | release | tick | ring | elsewhere => exact Or.inr hcall
    | listen id' cancel' hnone =>
      rw [hcall] at hnone
      cases hnone
    | hear call tick | finish call tick => exact Or.inl ⟨tick, by simp⟩
    | answer call tick reply clock hcall' hpoint | close call tick reply hcall' hpoint =>
      obtain rfl := Option.some.inj (hcall.symm.trans hcall')
      cases hpoint

theorem Attends.run (h : Attends id cancel v) (events : List VigilEvent) :
    Attends id cancel (v.run events) :=
  run_induction (fun _ _ h hmoved => h.moved hmoved) h events

/-- No timeout got through to the thread just if each found a release in the bell. -/
theorem swallowed_iff (h : Traced history) :
    ((∀ tick, unheard history ≠ some (.timeout tick)) ∧
        ∀ tick, .heard (.timeout tick) ∉ history) ↔
      ∀ id tick found, .fired id tick found ∈ history → found = some .released := by
  induction history with
  | nil => simp [unheard]
  | cons news older ih =>
    cases news with
    | granted | answered | returned => simpa [unheard] using ih h
    | released =>
      simp only [List.mem_cons, reduceCtorEq, false_or, ← ih h]
      cases hwake : unheard older <;> simp [hwake]
    | heard wake =>
      obtain ⟨hwake, h⟩ := h
      simp only [List.mem_cons, reduceCtorEq, false_or, ← ih h]
      cases wake with
      | released => simp [hwake]
      | timeout tick =>
        exact iff_of_false (fun hnone => hnone.2 tick (Or.inl rfl)) fun hnone => hnone.1 tick hwake
    | fired id tick found =>
      obtain ⟨rfl, h⟩ := h
      have holder := ih h
      constructor
      · rintro ⟨hpending, hheard⟩ id' tick' found' hmem
        -- a timeout that found nothing, or another timeout, leaves a timeout in the bell
        have hreleased : unheard older = some .released := by
          cases hwake : unheard older with
          | none => exact absurd (by simp [hwake]) (hpending tick)
          | some wake =>
            cases wake with
            | released => rfl
            | timeout tick' => exact absurd (by simp [hwake]) (hpending tick')
        rcases List.mem_cons.1 hmem with heq | hold
        · cases heq
          exact hreleased
        · refine holder.1 ⟨by simp [hreleased], fun t ht => ?_⟩ id' tick' found' hold
          exact hheard t (List.mem_cons_of_mem _ ht)
      · intro hall
        have hreleased := hall id tick _ List.mem_cons_self
        obtain ⟨-, hheard⟩ := holder.2 fun id' tick' found' hmem =>
          hall id' tick' found' (List.mem_cons_of_mem _ hmem)
        refine ⟨by simp [hreleased], fun t ht => hheard t ?_⟩
        simpa using ht

theorem stranded_iff_swallowed (h : v.Heeds) (hattends : Attends id cancel v) :
    v.Stranded id ↔ (∃ tick found, .fired id tick found ∈ v.history) ∧
      ∀ id' tick found, .fired id' tick found ∈ v.history → found = some .released := by
  rw [← swallowed_iff h.traced, ← h.pending]
  constructor
  · exact fun hstranded => ⟨hstranded.fired, hstranded.bell, hstranded.unheard⟩
  · rintro ⟨hfired, hbell, hunheard⟩
    obtain ⟨tick, hheard⟩ | hcall := hattends
    · exact absurd hheard (hunheard tick)
    · exact ⟨⟨_, hcall, rfl, rfl⟩, hfired, hunheard, hbell⟩

/-- A thread whose timeout fired has heard one after its next step, unless it is stranded. -/
theorem hears_of_not_stranded (hattends : Attends id cancel v)
    (hfired : ∃ tick found, .fired id tick found ∈ v.history) (hstranded : ¬ v.Stranded id) :
    ∃ tick, .heard (.timeout tick) ∈ (v.handle .step).history := by
  obtain ⟨tick, hheard⟩ | hcall := hattends
  · exact ⟨tick, (moved_handle v .step).suffix.subset hheard⟩
  · by_contra hnone
    refine hstranded ⟨⟨_, hcall, rfl, rfl⟩, hfired, fun tick hheard => ?_, fun tick hbell => ?_⟩
    · exact hnone ⟨tick, (moved_handle v .step).suffix.subset hheard⟩
    · refine hnone ⟨tick, ?_⟩
      simp only [handle, hcall, step, step_listening, waitOf, hbell]
      cases cancel <;> simp [advance]

theorem oneShot_start {s : Schedule} (hlock : s.Lockstep n) {x : TimeoutEntry}
    (hx : x ∈ s.pending) (hperiodic : x.periodic = false) (threads : Nat) (bell : NotificationId)
    (client : ClockClient) (tick : Tick) (cancel : Bool) :
    OneShot n x.id (start threads bell client { tick, schedule := s } x.id cancel) :=
  { lockstep := hlock
    known := hlock.named x hx
    once := fun _ hy heq => List.inj_on_of_nodup_map hlock.ids_nodup hy hx heq ▸ hperiodic
    distinct := List.nodup_nil
    leaving := nofun
    retired := nofun }

/-- A thread that waits for a one-shot misses it just if every timeout so far found a release in the
bell. Otherwise it hears a timeout at its next step; and if it missed it, whatever happens, it goes on
waiting just as long as every other timeout finds a release too. -/
theorem stranded_iff {capacity : Nat} {s₀ : Schedule} (hmade : Schedule.ofCapacity capacity = .ok s₀)
    (ops : List Schedule.Op) {x : TimeoutEntry} (hx : x ∈ (s₀.run ops).2.pending)
    (hperiodic : x.periodic = false) {threads : Nat} {bell : NotificationId} (hbell : bell < threads)
    (client : ClockClient) (tick : Tick) (cancel : Bool) (events : List VigilEvent) :
    let v := (start threads bell client { tick, schedule := (s₀.run ops).2 } x.id cancel).run events
    (v.Stranded x.id ↔ (∃ tick found, .fired x.id tick found ∈ v.history) ∧
      ∀ id tick found, .fired id tick found ∈ v.history → found = some .released) ∧
    ((∃ tick found, .fired x.id tick found ∈ v.history) → ¬ v.Stranded x.id →
      ∃ tick, .heard (.timeout tick) ∈ (v.handle .step).history) ∧
    ∀ more, Schedule.grants (s₀.run ops).1 + granted (v.run more).history ≤ Schedule.maxGranted →
      v.Stranded x.id → ((v.run more).Stranded x.id ↔
        ∀ id tick found, id ≠ x.id → .fired id tick found ∈ (v.run more).history →
          found = some .released) := by
  intro v
  have hheeds : v.Heeds := (heeds_start hbell client _ x.id cancel).run events
  have hattends : Attends x.id cancel v := Attends.run (Or.inr rfl) events
  have hiff := stranded_iff_swallowed hheeds hattends
  refine ⟨hiff, hears_of_not_stranded hattends, fun more hn hstranded => ?_⟩
  have hlock : (s₀.run ops).2.Lockstep (Schedule.grants (s₀.run ops).1) :=
    Schedule.lockstep_of_run hmade ops (Nat.le_trans (Nat.le_add_right ..) hn)
  have honce : OneShot (Schedule.grants (s₀.run ops).1) x.id v :=
    (oneShot_start hlock hx hperiodic threads bell client tick cancel).run events
      (Nat.le_trans (Nat.add_le_add_left (granted_mono (suffix_run v more)) _) hn)
  obtain ⟨⟨now, found, hfired⟩, hswallowed⟩ := hiff.1 hstranded
  rw [stranded_iff_swallowed (hheeds.run more) (hattends.run more)]
  constructor
  · exact fun hall id tick found _ hmem => hall.2 id tick found hmem
  · intro hothers
    refine ⟨⟨now, found, (suffix_run v more).subset hfired⟩, fun id' tick' found' hmem => ?_⟩
    by_cases hid : id' = x.id
    · -- the one-shot is gone, so it fired before
      subst hid
      obtain ⟨-, news, hnews, hquiet⟩ := (honce.retired now found hfired).run more hn
      exact hswallowed x.id tick' found'
        ((List.mem_append.1 (hnews ▸ hmem)).resolve_left (hquiet tick' found'))
    · exact hothers id' tick' found' hid hmem

/-- A release is in the bell when the only timeout fires. -/
theorem stranded_by_release :
    ∃ s₀, Schedule.ofCapacity 1 = .ok s₀ ∧
      let s := (s₀.run [.insert 0 0 false 10 0]).2
      ∃ x ∈ s.pending, x.periodic = false ∧ s.wakeOf x.id = some 0 ∧
        ((start 1 0 ⟨0⟩ { tick := 0, schedule := s } x.id false).run
          [.release, .tick 10, .deliver, .step]).Stranded x.id := by
  refine ⟨_, rfl, ⟨⟨.ofNat 1, by decide⟩, 0, false, 10, 10⟩, List.mem_singleton_self _, rfl, rfl, ?_⟩
  refine
    { listening := ⟨{ id := ⟨.ofNat 1, by decide⟩, cancel := false }, rfl, rfl, rfl⟩
      fired := ⟨10, some .released, List.mem_cons_of_mem _ List.mem_cons_self⟩
      unheard := fun tick hheard => ?_
      bell := fun tick hbell => by cases hbell }
  -- what the thread heard is the release
  rcases List.mem_cons.1 hheard with heq | hheard
  · cases heq
  · rcases List.mem_cons.1 hheard with heq | hheard
    · cases heq
    · cases List.mem_singleton.1 hheard

/-- A thread that was released before its timeout fired waits on through every later tick. -/
theorem stranded_iff_ticking :
    ∃ s₀, Schedule.ofCapacity 1 = .ok s₀ ∧
      let s := (s₀.run [.insert 0 0 false 10 0]).2
      ∃ x ∈ s.pending, x.periodic = false ∧ 0 < 1 ∧
        let v := (start 1 0 ⟨0⟩ { tick := 0, schedule := s } x.id false).run
          [.release, .tick 10, .deliver, .step]
        v.Stranded x.id ∧ (v.run [.tick 10, .step, .tick 10, .step]).Stranded x.id := by
  refine ⟨_, rfl, ⟨⟨.ofNat 1, by decide⟩, 0, false, 10, 10⟩, List.mem_singleton_self _, rfl,
    Nat.one_pos, ?_⟩
  obtain ⟨hiff, -, hstays⟩ := stranded_iff (x := ⟨⟨.ofNat 1, by decide⟩, 0, false, 10, 10⟩)
    (show Schedule.ofCapacity 1 = .ok _ from rfl) [.insert 0 0 false 10 0]
    (List.mem_singleton_self _) rfl Nat.one_pos ⟨0⟩ 0 false [.release, .tick 10, .deliver, .step]
  have hreleased : ∀ id tick found,
      .fired id tick found ∈ ([.heard .released, .fired ⟨.ofNat 1, by decide⟩ 10 (some .released),
        .released] : List VigilNews) → found = some .released := by simp
  have hstranded := hiff.2
    ⟨⟨10, some .released, List.mem_cons_of_mem _ List.mem_cons_self⟩, hreleased⟩
  refine ⟨hstranded, (hstays _ (by decide) hstranded).2 fun id tick found _ hmem => ?_⟩
  exact hreleased id tick found hmem

end Vigil

end Osal
