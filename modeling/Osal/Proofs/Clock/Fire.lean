import Osal.Proofs.Clock.Lockstep
import Osal.Proofs.Pool.Sweep
import Osal.Proofs.Wakes

/-!
# What a fire leaves

A fire is one sweep that delivers, re-arms, revokes and releases. `fire_outcome` says what it leaves of
the notifications, the entries, their slots and the capabilities, whichever timeouts are due and
however they share notifications. Signals go out along the way, but nothing that becomes of them
reaches the entries.
-/

namespace Osal

namespace TimeoutEntry

def staysAt (now : Tick) (e : TimeoutEntry) : Bool := e.periodic || !e.isDue now

def firedAs (now : Tick) (e : TimeoutEntry) : TimeoutEntry :=
  if e.isDue now && e.periodic then { e with nextFire := (e.rearm now).nextFire } else e

variable {now : Tick} {e : TimeoutEntry}

theorem staysAt_eq_false_iff : e.staysAt now = false ↔ e.isDue now = true ∧ e.periodic = false := by
  rw [staysAt, Bool.or_eq_false_iff, Bool.not_eq_false', and_comm]

theorem id_firedAs : (e.firedAs now).id = e.id := by
  rw [firedAs]
  split <;> rfl

theorem requester_firedAs : (e.firedAs now).requester = e.requester := by
  rw [firedAs]
  split <;> rfl

end TimeoutEntry

namespace Schedule

variable {s s' : Schedule} {n n' : Nat} {now : Tick} {wakes : Wakes}

/-- What a fire leaves of a schedule and of the notifications. -/
structure FireOutcome (s : Schedule) (wakes : Wakes) (now : Tick)
    (answer : Nat × Schedule × Wakes) : Prop where
  count : answer.1 = (s.due now).length
  /-- A pending wake keeps its payload. -/
  coalesced : ∀ k, wakes.isPending k = true → answer.2.2.get k = wakes.get k
  /-- Nothing reaches a notification whose waiting side is gone. -/
  closed : ∀ k, ¬ wakes.IsLive k → answer.2.2.get k = wakes.get k
  /-- However many due timeouts signal a notification, it has one wake. -/
  woken : ∀ k, wakes.IsLive k → wakes.isPending k = false →
    (∃ e ∈ s.due now, s.wakeOf e.id = some k) → answer.2.2.get k = { pending := some (.timeout now) }
  spared : ∀ k, (∀ e ∈ s.due now, s.wakeOf e.id ≠ some k) → answer.2.2.get k = wakes.get k
  /-- The others stay in their slots and in their order. -/
  entries : answer.2.1.entries.toList =
    (s.entries.toList.filter fun entry => entry.2.staysAt now).map fun entry =>
      (entry.1, entry.2.firedAs now)
  isLive : ∀ entry ∈ s.entries.toList, answer.2.1.entries.isLive entry.1 = entry.2.staysAt now
  revoked : ∀ e ∈ s.due now, e.periodic = false → answer.2.1.caps.lookup e.id.cptr = none
  kept : ∀ p, (∀ e ∈ s.due now, e.periodic = false → e.id.cptr ≠ p) →
    answer.2.1.caps.lookup p = s.caps.lookup p
  /-- What becomes of the signals changes neither the entries nor the capabilities. -/
  undisturbed : ∀ wakes', ((s.fire wakes' now).1, (s.fire wakes' now).2.1) = (answer.1, answer.2.1)

/-! ## The notifications -/

theorem fire_wakes (h : s.Lockstep n) (wakes : Wakes) (now : Tick) :
    (s.fire wakes now).2.2 =
      wakes.signalAll ((s.deliveries now).map (·.2)) (.timeout now) := by
  obtain ⟨s', hfire, -⟩ := fire_spec h wakes now
  rw [hfire, signalEach_due, Wakes.signalAll, List.foldl_map]

theorem mem_signalled_iff {k : NotificationId} :
    k ∈ (s.deliveries now).map (·.2) ↔ ∃ e ∈ s.due now, s.wakeOf e.id = some k := by
  simp only [deliveries, List.map_filterMap, List.mem_filterMap, Option.map_map]
  refine exists_congr fun e => and_congr_right fun _ => ?_
  cases s.wakeOf e.id <;> simp

theorem get_fire (h : s.Lockstep n) (wakes : Wakes) (now : Tick) (k : NotificationId) :
    (s.fire wakes now).2.2.get k =
      if ∃ e ∈ s.due now, s.wakeOf e.id = some k then ((wakes.get k).signal (.timeout now)).2
      else wakes.get k := by
  rw [fire_wakes h, Wakes.get_signalAll]
  simp only [mem_signalled_iff]

/-! ## The entries -/

/-- What is decided about an entry does not depend on what was done for those before it. -/
theorem fireEntry_snd (f : Firing) (slot : Handle) (e : TimeoutEntry) :
    (fireEntry now f slot e).2 =
      (e.firedAs now, if e.staysAt now then .keep else .release) := by
  have hdue : tickReached now e.nextFire = e.isDue now := rfl
  rw [fireEntry, TimeoutEntry.firedAs, TimeoutEntry.staysAt, hdue]
  generalize e.isDue now = due
  obtain ⟨id, requester, periodic, period, nextFire⟩ := e
  cases due <;> cases periodic <;> rfl

theorem sifted_fire (h : ∃ free alloc, s.entries.Sound free alloc) (wakes : Wakes) (now : Tick) :
    ∃ visits, s.entries.Sifted { fired := 0, caps := s.caps, wakes } (fireEntry now) visits
      (s.entries.sweep { fired := 0, caps := s.caps, wakes } (fireEntry now)) := by
  obtain ⟨free, alloc, hpool⟩ := h
  obtain ⟨q, hmirrors⟩ := hpool.mirrors TimeoutEntry.blank
  exact ⟨_, hmirrors.sifted _ _⟩

theorem toList_fire (h : ∃ free alloc, s.entries.Sound free alloc) (wakes : Wakes) (now : Tick) :
    (s.fire wakes now).2.1.entries.toList =
      (s.entries.toList.filter fun entry => entry.2.staysAt now).map fun entry =>
        (entry.1, entry.2.firedAs now) := by
  obtain ⟨visits, hsifted⟩ := sifted_fire h wakes now
  refine (hsifted.toList_eq fireEntry_snd).trans ?_
  refine congrArg _ (List.filter_congr fun entry _ => ?_)
  cases entry.2.staysAt now <;> rfl

theorem isLive_fire (h : ∃ free alloc, s.entries.Sound free alloc) (wakes : Wakes) (now : Tick)
    {entry : Handle × TimeoutEntry} (hmem : entry ∈ s.entries.toList) :
    (s.fire wakes now).2.1.entries.isLive entry.1 = entry.2.staysAt now := by
  obtain ⟨visits, hsifted⟩ := sifted_fire h wakes now
  refine (hsifted.isLive_eq fireEntry_snd hmem).trans ?_
  cases entry.2.staysAt now <;> rfl

theorem mem_pending_fire (h : ∃ free alloc, s.entries.Sound free alloc) (wakes : Wakes)
    {e' : TimeoutEntry} :
    e' ∈ (s.fire wakes now).2.1.pending ↔
      ∃ e ∈ s.pending, e.staysAt now = true ∧ e.firedAs now = e' := by
  rw [pending, toList_fire h, List.map_map, List.mem_map, pending]
  constructor
  · rintro ⟨entry, hentry, rfl⟩
    obtain ⟨hmem, hstays⟩ := List.mem_filter.1 hentry
    exact ⟨entry.2, List.mem_map_of_mem hmem, hstays, rfl⟩
  · rintro ⟨e, he, hstays, rfl⟩
    obtain ⟨entry, hmem, rfl⟩ := List.mem_map.1 he
    exact ⟨entry, List.mem_filter.2 ⟨hmem, hstays⟩, rfl⟩

/-! ## The capabilities -/

theorem lookup_fire_of_stays (h : s.Lockstep n) (wakes : Wakes) {e : TimeoutEntry}
    (he : e ∈ s.pending) (hstays : e.staysAt now = true) :
    (s.fire wakes now).2.1.caps.lookup e.id.cptr = s.caps.lookup e.id.cptr := by
  obtain ⟨s', hfire, hlock, -, -, hwakes⟩ := fire_spec h wakes now
  have he' : e.firedAs now ∈ s'.pending := by
    have hmem := (mem_pending_fire h.pool wakes).2 ⟨e, he, hstays, rfl⟩
    rwa [hfire] at hmem
  obtain ⟨cap, hlookup, hbadge, hrights⟩ := h.matched.lookup_of_mem he
  obtain ⟨cap', hlookup', hbadge', hrights'⟩ := hlock.matched.lookup_of_mem he'
  have hobject := hwakes _ he'
  rw [wakeOf, wakeOf, hlookup', TimeoutEntry.id_firedAs, hlookup] at hobject
  rw [TimeoutEntry.id_firedAs] at hlookup'
  rw [TimeoutEntry.requester_firedAs] at hbadge'
  rw [hfire, hlookup, hlookup']
  obtain ⟨object, badge, rights⟩ := cap
  obtain ⟨object', badge', rights'⟩ := cap'
  simp_all

theorem lookup_fire_eq_none (h : s.Lockstep n) (wakes : Wakes) {p : CapPtr}
    (hp : ∀ e ∈ s.pending, e.staysAt now = true → e.id.cptr ≠ p) :
    (s.fire wakes now).2.1.caps.lookup p = none := by
  obtain ⟨s', hfire, hlock, -⟩ := fire_spec h wakes now
  rw [CapSpace.lookup_eq_none_iff, hfire, hlock.matched.mem_pointers_iff]
  rintro ⟨e', he', hptr⟩
  have hmem : e' ∈ (s.fire wakes now).2.1.pending := by rwa [hfire]
  obtain ⟨e, he, hstays, rfl⟩ := (mem_pending_fire h.pool wakes).1 hmem
  rw [TimeoutEntry.id_firedAs] at hptr
  exact hp e he hstays hptr

theorem lookup_fire_of_leaves (h : s.Lockstep n) (wakes : Wakes) {e : TimeoutEntry}
    (he : e ∈ s.pending) (hleaves : e.staysAt now = false) :
    (s.fire wakes now).2.1.caps.lookup e.id.cptr = none := by
  refine lookup_fire_eq_none h wakes fun e' he' hstays hptr => ?_
  have heq := List.inj_on_of_nodup_map h.ids_nodup he' he (TimeoutId.eq_of_cptr hptr)
  rw [heq, hleaves] at hstays
  cases hstays

theorem lookup_fire_of_forall_ne (h : s.Lockstep n) (wakes : Wakes) {p : CapPtr}
    (hp : ∀ e ∈ s.pending, e.staysAt now = false → e.id.cptr ≠ p) :
    (s.fire wakes now).2.1.caps.lookup p = s.caps.lookup p := by
  by_cases hheld : p ∈ s.caps.pointers
  · obtain ⟨e, he, rfl⟩ := h.matched.mem_pointers_iff.1 hheld
    refine lookup_fire_of_stays h wakes he ?_
    exact Bool.of_not_eq_false fun hleaves => hp e he hleaves rfl
  · rw [CapSpace.lookup_eq_none_iff.2 hheld]
    exact lookup_fire_eq_none h wakes fun e he _ hptr =>
      hheld (h.matched.mem_pointers_iff.2 ⟨e, he, hptr⟩)

/-! ## Signals and the tables -/

def Firing.mute (f : Firing) : Firing := { f with wakes := ⟨#[]⟩ }

theorem mute_deliver (f : Firing) (id : TimeoutId) : (f.deliver id now).mute = f.mute := by
  rw [Firing.deliver]
  split <;> rfl

theorem mute_revoke (f : Firing) (id : TimeoutId) : (f.revoke id).mute = f.mute.revoke id := by
  have hcaps : f.mute.caps = f.caps := rfl
  rw [Firing.revoke, Firing.revoke, hcaps]
  cases f.caps.revoke id.cptr <;> rfl

theorem mute_fireEntry (f : Firing) (slot : Handle) (e : TimeoutEntry) :
    (fireEntry now f slot e).1.mute = (fireEntry now f.mute slot e).1.mute := by
  have hdelivered : ({ f.deliver e.id now with fired := f.fired + 1 } : Firing).mute =
      ({ f.mute.deliver e.id now with fired := f.fired + 1 } : Firing).mute :=
    congrArg (fun g : Firing => { g with fired := f.fired + 1 })
      ((mute_deliver f e.id).trans (mute_deliver f.mute e.id).symm)
  rw [fireEntry, fireEntry]
  split
  · split
    · exact hdelivered
    · exact (mute_revoke ..).trans ((congrArg (·.revoke e.id) hdelivered).trans
        (mute_revoke ..).symm)
  · rfl

/-- A visitor that fires and forgets what it signalled. -/
def fireMuted (now : Tick) : Pool.Visitor Firing TimeoutEntry := fun f slot e =>
  ((fireEntry now f slot e).1.mute, (fireEntry now f slot e).2)

theorem fireMuted_mute (f : Firing) (slot : Handle) (e : TimeoutEntry) :
    ((fireEntry now f slot e).1.mute, (fireEntry now f slot e).2) = fireMuted now f.mute slot e := by
  rw [fireMuted, mute_fireEntry, fireEntry_snd, ← fireEntry_snd f.mute slot e]

/-- A fire counts, keeps, re-arms and revokes alike whatever the notifications are. -/
theorem fire_undisturbed (s : Schedule) (wakes wakes' : Wakes) (now : Tick) :
    ((s.fire wakes now).1, (s.fire wakes now).2.1) =
      ((s.fire wakes' now).1, (s.fire wakes' now).2.1) := by
  have hmuted : ∀ wakes, _ =
      s.entries.sweep { fired := 0, caps := s.caps, wakes := ⟨#[]⟩ } (fireMuted now) :=
    fun wakes => Pool.sweepFrom_map Firing.mute fireMuted_mute s.entries.capacity
      s.entries.allocatedList.head { fired := 0, caps := s.caps, wakes } 0 s.entries
  let tables (answer : Firing × Nat × Pool TimeoutEntry) : Nat × Schedule :=
    (answer.1.fired, { entries := answer.2.2, caps := answer.1.caps })
  have hsame := congrArg tables ((hmuted wakes).trans (hmuted wakes').symm)
  exact hsame

/-! ## A fire -/

theorem Lockstep.fireOutcome (h : s.Lockstep n) (wakes : Wakes) (now : Tick) :
    s.FireOutcome wakes now (s.fire wakes now) := by
  obtain ⟨s', hfire, -⟩ := fire_spec h wakes now
  have hleaves : ∀ e ∈ s.due now, e.periodic = false →
      e ∈ s.pending ∧ e.staysAt now = false := fun e he honce => by
    obtain ⟨hmem, hdue⟩ := List.mem_filter.1 he
    exact ⟨hmem, TimeoutEntry.staysAt_eq_false_iff.2 ⟨hdue, honce⟩⟩
  have hget := get_fire h wakes now
  refine
    { count := congrArg Prod.fst hfire
      coalesced := fun k hpending => ?_
      closed := fun k hclosed => ?_
      woken := fun k hlive hempty hdue => ?_
      spared := fun k hnone => ?_
      entries := toList_fire h.pool wakes now
      isLive := fun entry => isLive_fire h.pool wakes now
      revoked := fun e he honce => ?_
      kept := fun p hp => ?_
      undisturbed := fun wakes' => fire_undisturbed s wakes' wakes now }
  · rw [hget]
    split
    · exact Notification.signal_of_pending hpending _
    · rfl
  · rw [hget]
    split
    · exact Notification.signal_of_closed (Bool.eq_false_iff.2 hclosed) _
    · rfl
  · rw [hget, if_pos hdue]
    exact Notification.signal_of_empty hlive hempty _
  · rw [hget, if_neg fun ⟨e, he, hwake⟩ => hnone e he hwake]
  · obtain ⟨hmem, hgone⟩ := hleaves e he honce
    exact lookup_fire_of_leaves h wakes hmem hgone
  · refine lookup_fire_of_forall_ne h wakes fun e he hgone => ?_
    obtain ⟨hdue, honce⟩ := TimeoutEntry.staysAt_eq_false_iff.1 hgone
    exact hp e (List.mem_filter.2 ⟨he, hdue⟩) honce

/-- A fire in any state that a schedule can get into, at any tick and with any notifications. -/
theorem fire_outcome {s₀ : Schedule} {capacity : Nat} (hmade : ofCapacity capacity = .ok s₀)
    (ops : List Op) (hn : grants (s₀.run ops).1 ≤ maxGranted) (wakes : Wakes) (now : Tick) :
    let s := (s₀.run ops).2
    s.FireOutcome wakes now (s.fire wakes now) :=
  (lockstep_of_run hmade ops hn).fireOutcome wakes now

/-- Two due timeouts share a notification, one signals a notification with a wake and one signals a
closed one. -/
theorem fire_outcome_shared :
    let ops : List Op := [.insert 0 7 true 10 0, .insert 0 7 false 12 0, .insert 0 8 false 50 0,
      .insert 0 8 false 11 1, .insert 0 9 true 4 2]
    let wakes : Wakes := ⟨#[{}, { pending := some (.timeout 3) }, { live := false }]⟩
    ∃ s₀, ofCapacity 5 = .ok s₀ ∧ grants (s₀.run ops).1 ≤ maxGranted ∧
      let fired := (s₀.run ops).2.fire wakes 12
      fired.1 = 4 ∧ fired.2.2.get 0 = { pending := some (.timeout 12) } ∧
        fired.2.2.get 1 = { pending := some (.timeout 3) } ∧ fired.2.2.get 2 = { live := false } ∧
        fired.2.1.caps.lookup 2 = none ∧
        fired.2.1.entries.toList.map (fun entry => (entry.1.index, entry.2.nextFire)) =
          [(0, 20), (2, 50), (4, 16)] := by
  intro ops wakes
  obtain ⟨s₀, hmade⟩ : ∃ s₀, ofCapacity 5 = .ok s₀ := ⟨_, rfl⟩
  have hn : grants (s₀.run ops).1 ≤ maxGranted := by
    refine Nat.le_trans (grants_le_length _) ?_
    rw [length_run]
    decide
  have houtcome := fire_outcome hmade ops hn wakes 12
  refine ⟨s₀, hmade, hn, ?_⟩
  obtain rfl := Except.ok.inj hmade
  refine ⟨?_, ?_, ?_, ?_, ?_, ?_⟩
  · exact houtcome.count.trans (by decide +kernel)
  · exact houtcome.woken 0 rfl rfl (by decide +kernel)
  · exact houtcome.coalesced 1 rfl
  · exact houtcome.closed 2 Bool.false_ne_true
  · exact houtcome.revoked ⟨⟨2, by decide⟩, 7, false, 12, 12⟩ (by decide +kernel) rfl
  · exact (congrArg _ houtcome.entries).trans (by decide +kernel)

end Schedule

end Osal
