import Osal.Proofs.Semaphore.Sound

/-!
# No wakeup leaks into the next call

In an ensemble whose threads take semaphores and sleep, a thread that is outside of any call has
nothing that could wake it: no wake is pending, no wait slot names it and no timeout signals it.
`nothing_leaks` says so of every run, and what follows for the results of calls. The invariant is
`Ensemble.Sound`; here are the steps of the clock, which keep it too, and the runs.
-/

namespace Osal

namespace Ensemble

variable {e : Ensemble} {k : NotificationId} {call : BlockingCall} {id : TimeoutId}

/-! ## The clock -/

section Clock

theorem Sound.disarm (h : e.Sound) {clock : ClockState}
    {outgoing : List (TimeoutId × NotificationId)}
    (hlock : clock.schedule.Lockstep (granted e.history))
    (honce : ∀ x ∈ clock.schedule.pending, x.periodic = false)
    (hdistinct : (outgoing.map (·.1) ++ clock.schedule.pending.map (·.id)).Nodup)
    (harmed : ∀ id k, Armed { e with clock, outgoing } id k → e.Armed id k) :
    Sound { e with clock, outgoing } :=
  { lockstep := hlock, oneShot := honce, distinct := hdistinct, explained := h.explained
    named := h.named, unfired := fun id k hnow => h.unfired id k (harmed id k hnow)
    orderly := h.orderly, armed := fun id k hnow => h.armed id k (harmed id k hnow)
    allowed := h.allowed, fits := h.fits }

/-- The signal of a timeout reaches the call that the timeout was scheduled for. -/
theorem Sound.deliver (h : e.Sound) : (e.handle .deliver).Sound := by
  cases hout : e.outgoing with
  | nil =>
    simp only [handle, hout]
    exact h
  | cons d outgoing =>
    obtain ⟨id, k⟩ := d
    have hdistinct := h.distinct
    rw [hout, List.map_cons, List.cons_append, List.nodup_cons] at hdistinct
    have hrest : Sound { e with outgoing } := by
      refine h.disarm h.lockstep h.oneShot hdistinct.2 fun id k harmed => ?_
      rcases harmed with hpending | hmem
      · exact Or.inl hpending
      · exact Or.inr (hout ▸ List.mem_cons_of_mem _ hmem)
    have harmed : e.Armed id k := Or.inr (hout ▸ List.mem_cons_self)
    obtain ⟨call, hk, htimer⟩ := h.armed id k harmed
    have howned := (h.fits k call hk).owned id (BlockingCall.named?_of_timer? htimer)
    -- the fire takes a timeout off the schedule before it signals, so this was the last of it
    have hgone : ∀ j, ¬ Armed { e with outgoing } id j := by
      rintro j (⟨⟨x, hx, rfl⟩, -⟩ | hmem)
      · exact hdistinct.1 (List.mem_append_right _ (List.mem_map.2 ⟨x, hx, rfl⟩))
      · exact hdistinct.1 (List.mem_append_left _ (List.mem_map.2 ⟨(id, j), hmem, rfl⟩))
    simp only [handle, hout]
    refine
      { lockstep := hrest.lockstep, oneShot := hrest.oneShot, distinct := hrest.distinct
        explained := ⟨⟨⟨call.number, howned⟩, h.unfired id k harmed⟩, h.explained⟩
        named := fun happening hmem id' hid => ?_, unfired := fun id' j hnow tick hmem => ?_
        orderly := h.orderly, armed := hrest.armed, allowed := fun j wake hwake => ?_
        fits := fun j call' hcall =>
          BlockingCall.Fits.append [.fired id e.clock.tick] (h.fits j call' hcall) }
    · rcases List.mem_cons.1 hmem with rfl | hmem
      · obtain rfl := Option.some.inj hid
        exact h.named _ howned id rfl
      · exact h.named happening hmem id' hid
    · rcases List.mem_cons.1 hmem with heq | hmem
      · cases heq
        exact hgone j hnow
      · exact hrest.unfired id' j hnow tick hmem
    · rcases Wakes.pending?_signal hwake with hold | ⟨rfl, rfl⟩
      · obtain ⟨call', hcall, hexpects⟩ := h.allowed j wake hold
        exact ⟨call', hcall, hexpects.append [.fired id e.clock.tick]⟩
      · exact ⟨call, hk, BlockingCall.Expects.of_isTimer
          ⟨id, e.clock.tick, rfl, htimer, List.mem_cons_self⟩⟩

theorem Sound.tick (h : e.Sound) (period : Tick) : (e.handle (.tick period)).Sound := by
  cases hout : e.outgoing with
  | cons d outgoing =>
    simp only [handle, hout]
    exact h
  | nil =>
    simp only [handle, hout]
    let now := (e.clock.advance period).tick
    obtain ⟨s', hfired, hlock, hpending, hwake⟩ :=
      fireDue_spec (e.clock.advance period) h.lockstep e.wakes
    have hpending : s'.pending = e.clock.schedule.pending.filterMap (TimeoutEntry.afterFire now) :=
      hpending
    have hkept : s'.pending = e.clock.schedule.pending.filter (fun x => !x.isDue now) := by
      rw [hpending, ← List.filterMap_eq_filter]
      refine List.filterMap_congr fun x hx => ?_
      cases hdue : x.isDue now <;> simp [TimeoutEntry.afterFire, hdue, h.oneShot x hx, Option.guard]
    have hmem : ∀ x, x ∈ s'.pending → x ∈ e.clock.schedule.pending := fun x hx =>
      List.mem_of_mem_filter (hkept ▸ hx)
    rw [hfired]
    refine h.disarm hlock (fun x hx => h.oneShot x (hmem x hx)) ?_ fun id k harmed => ?_
    · have hperm := (List.filter_append_perm (·.isDue now) e.clock.schedule.pending).map (·.id)
      rw [List.map_append, ← hkept] at hperm
      have hnodup := hperm.nodup_iff.2 h.lockstep.ids_nodup
      exact hnodup.sublist (Schedule.map_fst_deliveries.append_right _)
    · refine Or.inl ?_
      rcases harmed with ⟨⟨x, hx, rfl⟩, hk⟩ | hdelivery
      · exact ⟨⟨x, hmem x hx, rfl⟩, (hwake x hx).symm.trans hk⟩
      · obtain ⟨x, hx, -, rfl, hk⟩ := Schedule.mem_deliveries.1 hdelivery
        exact ⟨⟨x, hx, rfl⟩, hk⟩

theorem request?_cases {badge : Badge} {request : ClockRequest}
    (h : e.request? k call = some (badge, request)) :
    (call.IsAsking ∧ ∃ period, request = .setTimeout false period k) ∨
      ∃ i ms id wake, call.task = .take i ms (.cancelling id wake) ∧
        request = .cancelTimeout id := by
  obtain ⟨number, task, reply⟩ := call
  cases task with
  | take i ms p =>
    simp only [request?] at h
    split at h
    · rename_i client request' hclock hrequest
      obtain ⟨rfl, rfl⟩ := Prod.mk.inj (Option.some.inj h)
      cases p with
      | scheduling slot =>
        exact Or.inl ⟨Or.inl ⟨i, ms, slot, rfl⟩, _, (Option.some.inj hrequest).symm⟩
      | cancelling id wake =>
        exact Or.inr ⟨i, ms, id, wake, rfl, (Option.some.inj hrequest).symm⟩
      | entering => cases hrequest
      | waiting slot timeout => cases hrequest
      | woken slot timeout wake => cases hrequest
    · cases h
  | sleep client ms p =>
    cases p with
    | scheduling =>
      obtain ⟨rfl, rfl⟩ := Prod.mk.inj (Option.some.inj h)
      exact Or.inl ⟨Or.inr ⟨client, ms, rfl⟩, _, rfl⟩
    | sleeping id => cases h

theorem Sound.orderly_reply (h : e.Sound) (hk : e.threads k = some call) (reply : Reply) (i : Nat) :
    (e.semaphores i).Orderly (Function.update (e.place i) k
      (BlockingCall.point? { call with reply := some reply } i)) :=
  h.orderly_of_place (by simp [place, hk, BlockingCall.point?])

theorem Sound.reply (h : e.Sound) (hk : e.threads k = some call) (reply : Reply)
    (harmed : ∀ id, ¬ e.Armed id k)
    (hexpects : ∀ wake, e.wakes.pending? k = some wake →
      ({ call with reply := some reply } : BlockingCall).Expects e.history wake)
    (hfits : ({ call with reply := some reply } : BlockingCall).Fits e.history) :
    (e.put k (some { call with reply := some reply }) e.wakes []).Sound :=
  h.goOn (Or.inl rfl) (h.orderly_reply hk reply) (fun id hnow => absurd hnow (harmed id)) hexpects
    hfits

theorem Sound.serve_refused (h : e.Sound) (hk : e.threads k = some call) (hasking : call.IsAsking)
    (hreply : call.reply = none) :
    (e.put k (some { call with reply := some (.failed .failed) }) e.wakes []).Sound := by
  have htimer : call.timer? = none := by rw [hasking.timer?_eq, hreply]; rfl
  have hfits := h.fits k call hk
  have hasking' : ({ call with reply := some (.failed .failed) } : BlockingCall).IsAsking := hasking
  refine h.reply hk _ (h.not_armed hk htimer) (fun wake hwake => ?_) ⟨?_, ?_, hfits.bounded⟩
  · rw [h.pending?_eq_none hk htimer fun _ => hasking.isTimer] at hwake
    cases hwake
  · intro timeout tick hheard
    rw [hasking'.heard?_eq] at hheard
    cases hheard
  · intro id hnamed
    rw [hasking'.named?_eq] at hnamed
    cases hnamed

/-- The clock cancels a timeout, or finds that it is gone; neither can wake the thread any more. -/
theorem Sound.serve_cancel (h : e.Sound) (hk : e.threads k = some call) {i : Nat}
    {timeoutMs : Int32} {wake : Wakeup} (htask : call.task = .take i timeoutMs (.cancelling id wake))
    (hreply : call.reply = none) (hout : e.outgoing = []) (badge : Badge) :
    let answer := e.clock.handle badge (.cancelTimeout id)
    Sound { e.put k (some { call with reply := some answer.1 }) e.wakes
      (replyNews call.number answer.1) with clock := answer.2 } := by
  have hfits := h.fits k call hk
  have htimer : call.timer? = some id := by simp [BlockingCall.timer?, htask, hreply]
  have hanswer : ∃ reply clock, e.clock.handle badge (.cancelTimeout id) = (reply, clock) ∧
      replyNews call.number reply = [] ∧ clock.schedule.Lockstep (granted e.history) ∧
      ∀ x ∈ clock.schedule.pending, x ∈ e.clock.schedule.pending ∧ x.id ≠ id ∧
        clock.schedule.wakeOf x.id = e.clock.schedule.wakeOf x.id := by
    by_cases hid : ∃ x ∈ e.clock.schedule.pending, x.id = id
    · obtain ⟨s', hcancel, hlock, -, hpending, hothers⟩ := Schedule.cancel_of_mem h.lockstep hid
      refine ⟨.cancelled, { e.clock with schedule := s' }, ?_, rfl, hlock, fun x hx => ?_⟩
      · simp only [ClockState.handle, hcancel]
      · obtain ⟨hx, hne⟩ := List.mem_filter.1 (hpending ▸ hx)
        have hne : x.id ≠ id := by simpa using hne
        exact ⟨hx, hne, hothers x.id hne⟩
    · have habsent : ∀ x ∈ e.clock.schedule.pending, x.id ≠ id := fun x hx heq => hid ⟨x, hx, heq⟩
      refine ⟨.failed .failed, e.clock, ?_, rfl, h.lockstep, fun x hx => ⟨hx, habsent x hx, rfl⟩⟩
      simp only [ClockState.handle, Schedule.cancel_of_notMem h.lockstep habsent]
  obtain ⟨reply, clock, hanswer, hnews, hlock, hkept⟩ := hanswer
  have hrest : Sound { e with clock, outgoing := [] } := by
    refine h.disarm hlock (fun x hx => h.oneShot x (hkept x hx).1) hlock.ids_nodup
      fun id' j harmed => Or.inl ?_
    rcases harmed with ⟨⟨x, hx, rfl⟩, hwake⟩ | hmem
    · obtain ⟨hold, -, hsame⟩ := hkept x hx
      exact ⟨⟨x, hold, rfl⟩, hsame.symm.trans hwake⟩
    · cases hmem
  have hgone : ∀ id', ¬ Armed { e with clock, outgoing := [] } id' k := by
    intro id' harmed
    obtain rfl := Option.some.inj (htimer.symm.trans (hrest.timer?_of_armed hk harmed))
    rcases harmed with ⟨⟨x, hx, heq⟩, -⟩ | hmem
    · exact (hkept x hx).2.1 heq
    · cases hmem
  have hreplied := hrest.reply hk reply hgone
    (fun _ _ => by simp only [BlockingCall.Expects, htask]) ?_
  · simp only [hanswer, hnews]
    rw [← hout] at hreplied
    exact hreplied
  · refine ⟨fun timeout tick hheard => hfits.heard timeout tick ?_, fun id hnamed => ?_,
      hfits.bounded⟩
    · simpa only [BlockingCall.heard?, htask] using hheard
    · refine hfits.owned id ?_
      simpa only [BlockingCall.named?, htask] using hnamed

theorem Sound.pending_of_granted (h : e.Sound) {s' : Schedule} {x y : TimeoutEntry}
    (hpending : s'.pending = e.clock.schedule.pending ++ [x])
    (hid : x.id.cptr.toNat = granted e.history + 1) (hy : y ∈ s'.pending) :
    y = x ∨ y ∈ e.clock.schedule.pending ∧ y.id ≠ x.id := by
  rcases List.mem_append.1 (hpending ▸ hy) with hmem | hmem
  · refine Or.inr ⟨hmem, fun heq => ?_⟩
    have hle := h.lockstep.named y hmem
    rw [heq] at hle
    omega
  · exact Or.inl (List.mem_singleton.1 hmem)

theorem Sound.armed_of_granted (h : e.Sound) (hk : e.threads k = some call)
    (htimer : call.timer? = none) (hout : e.outgoing = []) {s' : Schedule} {x : TimeoutEntry}
    (hpending : s'.pending = e.clock.schedule.pending ++ [x])
    (hid : x.id.cptr.toNat = granted e.history + 1) (hwake : s'.wakeOf x.id = some k)
    (hothers : ∀ id ≠ x.id, s'.wakeOf id = e.clock.schedule.wakeOf id) {j : NotificationId}
    (harmed : Armed { e with clock := { e.clock with schedule := s' } } id j) :
    id = x.id ∧ j = k ∨ j ≠ k ∧ e.Armed id j := by
  rcases harmed with ⟨⟨y, hy, rfl⟩, hj⟩ | hmem
  · rcases h.pending_of_granted hpending hid hy with rfl | ⟨hmem, hne⟩
    · exact Or.inl ⟨rfl, Option.some.inj (hj.symm.trans hwake)⟩
    · have hbefore : e.Armed y.id j := Or.inl ⟨⟨y, hmem, rfl⟩, (hothers y.id hne).symm.trans hj⟩
      exact Or.inr ⟨fun heq => h.not_armed hk htimer y.id (heq ▸ hbefore), hbefore⟩
  · have hmem : (id, j) ∈ e.outgoing := hmem
    rw [hout] at hmem
    cases hmem

theorem Sound.serve_granted (h : e.Sound) (hk : e.threads k = some call) (hasking : call.IsAsking)
    (hreply : call.reply = none) (hout : e.outgoing = []) {s' : Schedule} {x : TimeoutEntry}
    (hlock : s'.Lockstep (granted e.history + 1))
    (hpending : s'.pending = e.clock.schedule.pending ++ [x]) (honce : x.periodic = false)
    (hid : x.id.cptr.toNat = granted e.history + 1) (hwake : s'.wakeOf x.id = some k)
    (hothers : ∀ id ≠ x.id, s'.wakeOf id = e.clock.schedule.wakeOf id) (tick : Tick) :
    Sound { e.put k (some { call with reply := some (.scheduled x.id tick) }) e.wakes
      [.scheduled call.number x.id] with clock := { e.clock with schedule := s' } } := by
  let call' : BlockingCall := { call with reply := some (.scheduled x.id tick) }
  let e' : Ensemble := { e.put k (some call') e.wakes [.scheduled call.number x.id] with
    clock := { e.clock with schedule := s' } }
  show e'.Sound
  have htimer : call.timer? = none := by rw [hasking.timer?_eq, hreply]; rfl
  have hasking' : call'.IsAsking := hasking
  have hgrant : (Reply.scheduled x.id tick).grant? = some x.id :=
    Reply.grant?_of_ok (ClockClient.scheduledOf_scheduled x.id tick)
  have hgranted : granted e'.history = granted e.history + 1 := by
    show granted ([.scheduled call.number x.id] ++ e.history) = _
    rw [granted_append, Nat.add_comm]
    rfl
  -- names are counted, so that the history does not know the new one
  have hfresh : ∀ happening ∈ e.history, happening.id? ≠ some x.id := by
    intro happening hmem heq
    have hle := h.named happening hmem x.id heq
    omega
  have harmed : ∀ id j, e'.Armed id j → id = x.id ∧ j = k ∨ j ≠ k ∧ e.Armed id j :=
    fun id j => h.armed_of_granted hk htimer hout hpending hid hwake hothers
  refine
    { lockstep := hgranted ▸ hlock, oneShot := fun y hy => ?_, distinct := ?_
      explained := ⟨hfresh, h.explained⟩, named := fun happening hmem id hsome => ?_
      unfired := fun id j hnow tick' hmem => ?_, orderly := fun i => ?_
      armed := fun id j hnow => ?_, allowed := fun j wake hpending => ?_
      fits := fun j call'' hcall => ?_ }
  · rcases h.pending_of_granted hpending hid hy with rfl | ⟨hmem, -⟩
    · exact honce
    · exact h.oneShot y hmem
  · show (e.outgoing.map (·.1) ++ s'.pending.map (·.id)).Nodup
    rw [hout]
    exact hlock.ids_nodup
  · rw [hgranted]
    rcases List.mem_cons.1 hmem with rfl | hmem
    · obtain rfl := Option.some.inj hsome
      exact Nat.le_of_eq hid
    · exact Nat.le_succ_of_le (h.named happening hmem id hsome)
  · rcases List.mem_cons.1 hmem with heq | hmem
    · cases heq
    · rcases harmed id j hnow with ⟨rfl, -⟩ | ⟨-, hbefore⟩
      · exact hfresh _ hmem rfl
      · exact h.unfired id j hbefore tick' hmem
  · have hplace : e'.place i = Function.update (e.place i) k ((some call').bind (·.point? i)) :=
      place_put k (some call') e.wakes [.scheduled call.number x.id] i
    rw [hplace]
    exact h.orderly_reply hk _ i
  · show ∃ call, Function.update e.threads k (some call') j = some call ∧ _
    rcases harmed id j hnow with ⟨rfl, rfl⟩ | ⟨hj, hbefore⟩
    · rw [Function.update_self]
      exact ⟨call', rfl, hasking'.timer?_eq.trans hgrant⟩
    · rw [Function.update_of_ne hj]
      exact h.armed id j hbefore
  · show ∃ call, Function.update e.threads k (some call') j = some call ∧ _
    by_cases hj : j = k
    · subst hj
      have hnone := h.pending?_eq_none hk htimer fun _ => hasking.isTimer
      rw [show e.wakes.pending? j = some wake from hpending] at hnone
      cases hnone
    · rw [Function.update_of_ne hj]
      obtain ⟨call'', hcall, hexpects⟩ := h.allowed j wake hpending
      exact ⟨call'', hcall, hexpects.append [.scheduled call.number x.id]⟩
  · have hcall : Function.update e.threads k (some call') j = some call'' := hcall
    by_cases hj : j = k
    · subst hj
      rw [Function.update_self] at hcall
      obtain rfl := Option.some.inj hcall
      refine ⟨fun timeout tick' hheard => ?_, fun id hnamed => ?_, (h.fits j call hk).bounded⟩
      · rw [hasking'.heard?_eq] at hheard
        cases hheard
      · rw [hasking'.named?_eq] at hnamed
        obtain rfl := Option.some.inj (hgrant.symm.trans hnamed)
        exact List.mem_cons_self
    · rw [Function.update_of_ne hj] at hcall
      exact BlockingCall.Fits.append [.scheduled call.number x.id] (h.fits j call'' hcall)

theorem serve_cases (e : Ensemble) (k : NotificationId) (call : BlockingCall) :
    e.serve k call = e ∨ ∃ badge request, e.request? k call = some (badge, request) ∧
      call.reply = none ∧ e.outgoing = [] ∧ e.serve k call =
        let answer := e.clock.handle badge request
        { e.put k (some { call with reply := some answer.1 }) e.wakes
          (replyNews call.number answer.1) with clock := answer.2 } := by
  unfold Ensemble.serve
  split
  · rename_i badge request hrequest hreply hout
    exact Or.inr ⟨badge, request, hrequest, hreply, hout, rfl⟩
  · exact Or.inl rfl

theorem Sound.serve (h : e.Sound) (hk : e.threads k = some call)
    (hn : granted (e.serve k call).history ≤ Schedule.maxGranted) : (e.serve k call).Sound := by
  rcases serve_cases e k call with heq | ⟨badge, request, hrequest, hreply, hout, heq⟩
  · rw [heq]
    exact h
  rw [heq] at hn ⊢
  rcases request?_cases hrequest with ⟨hasking, period, rfl⟩ | ⟨i, ms, id, wake, htask, rfl⟩
  · rcases Nat.lt_or_eq_of_le h.lockstep.size_le with hroom | hfull
    · obtain ⟨id, s', hok⟩ := Schedule.insert_isOk_of_lt h.lockstep hroom e.clock.tick badge false
        period k
      have hgrants : e.clock.handle badge (.setTimeout false period k) =
          (.scheduled id e.clock.tick, { e.clock with schedule := s' }) := by
        simp only [ClockState.handle, hok]
      rw [hgrants] at hn ⊢
      have hlt : granted e.history < Schedule.maxGranted := by
        have hcount : granted ([.scheduled call.number id] ++ e.history) ≤ _ := hn
        rw [granted_append] at hcount
        have hone : granted [.scheduled call.number id] = 1 := rfl
        omega
      obtain ⟨s'', hinsert, hlock, -, hpending, hid, hwake, hothers⟩ :=
        Schedule.insert_of_lt h.lockstep hlt hroom e.clock.tick badge false period k
      obtain ⟨hsame, rfl⟩ := Prod.mk.inj (hok.symm.trans hinsert)
      obtain rfl := Except.ok.inj hsame
      exact h.serve_granted hk hasking hreply hout hlock hpending rfl hid hwake hothers e.clock.tick
    · have hrefused : e.clock.handle badge (.setTimeout false period k) =
          (.failed .failed, e.clock) := by
        simp only [ClockState.handle, Schedule.insert_of_full h.lockstep hfull]
      rw [hrefused]
      exact h.serve_refused hk hasking hreply
  · exact h.serve_cancel hk htask hreply hout badge

end Clock

/-! ## Runs -/

theorem suffix_put (k : NotificationId) (x : Option BlockingCall) (wakes : Wakes)
    (news : List Happening) : e.history <:+ (e.put k x wakes news).history :=
  List.suffix_append news e.history

theorem suffix_advanceSleep (k : NotificationId) (number : Nat) (client : ClockClient) (ms : Tick)
    (next : Wakes × Next Sleep.Point (Except Error Tick)) :
    e.history <:+ (e.advanceSleep k number client ms next).history := by
  obtain ⟨wakes, turn⟩ := next
  cases turn with
  | goto p => exact suffix_put ..
  | done outcome => exact suffix_put ..

theorem suffix_begin (k : NotificationId) (task : BlockingTask) :
    e.history <:+ (e.begin k task).history := by
  unfold Ensemble.begin
  split
  · exact List.suffix_append [] e.history
  · exact List.suffix_rfl

theorem suffix_stepTake (k : NotificationId) (i : Nat) (timeoutMs : Int32) (p : Take.Point) :
    e.history <:+ (e.stepTake k call i timeoutMs p).history := by
  unfold Ensemble.stepTake
  by_cases hinside : p.isInside = true
  · simp only [if_pos hinside]
    split
    · exact List.suffix_rfl
    · exact List.suffix_append _ e.history
  · simp only [if_neg hinside]
    split
    · exact List.suffix_rfl
    · exact List.suffix_append _ e.history

theorem suffix_stepSleep (k : NotificationId) (client : ClockClient) (ms : Tick)
    (p : Sleep.Point) : e.history <:+ (e.stepSleep k call client ms p).history := by
  unfold Ensemble.stepSleep
  cases p with
  | scheduling =>
    simp only
    split
    · exact List.suffix_rfl
    · exact suffix_advanceSleep ..
  | sleeping id =>
    simp only
    split
    · exact List.suffix_rfl
    · exact suffix_advanceSleep ..

theorem suffix_handle (e : Ensemble) (event : EnsembleEvent) :
    e.history <:+ (e.handle event).history := by
  cases event with
  | take k i ms => exact suffix_begin ..
  | sleep k client ms => exact suffix_begin ..
  | give i =>
    simp only [handle]
    split <;> exact List.suffix_rfl
  | step k =>
    simp only [handle]
    split
    · exact List.suffix_rfl
    · split
      · exact suffix_stepTake ..
      · exact suffix_stepSleep ..
  | serve k =>
    simp only [handle]
    split
    · exact List.suffix_rfl
    · rename_i call _
      rcases serve_cases e k call with heq | ⟨badge, request, -, -, -, heq⟩
      · simp only [heq, List.suffix_refl]
      · rw [heq]
        exact List.suffix_append _ e.history
  | tick period =>
    simp only [handle]
    split <;> exact List.suffix_rfl
  | deliver =>
    simp only [handle]
    split
    · exact List.suffix_rfl
    · exact List.suffix_cons _ _

theorem suffix_run (e : Ensemble) (events : List EnsembleEvent) :
    e.history <:+ (e.run events).history := by
  unfold run
  induction events generalizing e with
  | nil => exact List.suffix_rfl
  | cons event events ih => exact (suffix_handle e event).trans (ih (e.handle event))

theorem sound_handle (h : e.Sound) (event : EnsembleEvent)
    (hn : granted (e.handle event).history ≤ Schedule.maxGranted) : (e.handle event).Sound := by
  cases event with
  | take k i ms =>
    refine h.begin (fun _ => ⟨rfl, rfl⟩) fun j ms' p htask => ?_
    cases htask
    rfl
  | sleep k client ms =>
    refine h.begin (fun _ => ⟨rfl, rfl⟩) fun j ms' p htask => ?_
    cases htask
  | give i => exact h.give i
  | step k =>
    cases hk : e.threads k with
    | none =>
      simp only [handle, hk]
      exact h
    | some call =>
      cases htask : call.task with
      | take i ms p =>
        simp only [handle, hk, htask]
        exact h.stepTake hk htask
      | sleep client ms p =>
        simp only [handle, hk, htask]
        exact h.stepSleep hk htask
  | serve k =>
    cases hk : e.threads k with
    | none =>
      simp only [handle, hk]
      exact h
    | some call =>
      simp only [handle, hk] at hn ⊢
      exact h.serve hk hn
  | tick period => exact h.tick period
  | deliver => exact h.deliver

theorem sound_run (h : e.Sound) (events : List EnsembleEvent)
    (hn : granted (e.run events).history ≤ Schedule.maxGranted) : (e.run events).Sound := by
  induction events generalizing e with
  | nil => exact h
  | cons event events ih =>
    have hlater := granted_mono (suffix_run (e.handle event) events)
    exact ih (sound_handle h event (Nat.le_trans hlater hn)) hn

theorem sound_start {s : Schedule} (hlock : s.Lockstep 0) (hpending : s.pending = [])
    (threads : Nat) (initial : Nat → Bool) (maxWaiters : Nat → Nat)
    (clocks : Nat → Option ClockClient) (tick : Tick) :
    (start threads initial maxWaiters clocks { tick, schedule := s }).Sound := by
  have hunarmed : ∀ id k,
      ¬ (start threads initial maxWaiters clocks { tick, schedule := s }).Armed id k := by
    rintro id k (⟨⟨x, hx, -⟩, -⟩ | hmem)
    · have hx : x ∈ s.pending := hx
      rw [hpending] at hx
      cases hx
    · cases hmem
  refine
    { lockstep := hlock, oneShot := fun x hx => ?_, distinct := hlock.ids_nodup
      explained := trivial, named := fun _ hmem => ?_
      unfired := fun id k harmed => absurd harmed (hunarmed id k)
      orderly := fun i => Semaphore.orderly_ofSize ..
      armed := fun id k harmed => absurd harmed (hunarmed id k), allowed := fun k wake hwake => ?_
      fits := fun k call hk => ?_ }
  · have hx : x ∈ s.pending := hx
    rw [hpending] at hx
    cases hx
  · cases hmem
  · have hwake : (Wakes.ofCount threads).pending? k = some wake := hwake
    rw [Wakes.pending?_ofCount] at hwake
    cases hwake
  · cases hk

/-! ## Nothing leaks -/

/-- A thread outside of any call has nothing that could wake it, and the results of calls are as their
own timeouts made them. -/
structure NothingLeaks (e : Ensemble) : Prop where
  quiet : ∀ k, e.threads k = none → e.wakes.isPending k = false
  unparked : ∀ k, e.threads k = none → ∀ i, some k ∉ (e.semaphores i).slots
  unscheduled : ∀ k, e.threads k = none →
    ∀ x ∈ e.clock.schedule.pending, e.clock.schedule.wakeOf x.id ≠ some k
  unsignalled : ∀ k, e.threads k = none → ∀ id, (id, k) ∉ e.outgoing
  /-- A take times out only if it was bounded and a timeout that was scheduled for it had fired. -/
  timedOut : ∀ newer older call ms,
    e.history = newer ++ .took call ms (.error (.refused .timedOut)) :: older →
      0 < ms ∧ ∃ id tick, .scheduled call id ∈ older ∧ .fired id tick ∈ older
  /-- A sleep ends with the tick at which a timeout fired that was scheduled for it. -/
  slept : ∀ newer older call tick, e.history = newer ++ .slept call (.ok tick) :: older →
    ∃ id, .scheduled call id ∈ older ∧ .fired id tick ∈ older
  /-- No name is used twice. -/
  scheduled_once : ∀ newer older call id, e.history = newer ++ .scheduled call id :: older →
    ∀ call', .scheduled call' id ∉ older
  /-- A timeout fires after it was scheduled, and once. -/
  fired_once : ∀ newer older id tick, e.history = newer ++ .fired id tick :: older →
    (∃ call, .scheduled call id ∈ older) ∧ ∀ tick', .fired id tick' ∉ older

theorem Sound.nothingLeaks (h : e.Sound) : e.NothingLeaks := by
  have hunarmed : ∀ k, e.threads k = none → ∀ id, ¬ e.Armed id k := by
    intro k hk id harmed
    obtain ⟨call, hcall, -⟩ := h.armed id k harmed
    rw [hk] at hcall
    cases hcall
  refine
    { quiet := fun k hk => ?_, unparked := fun k hk i hmem => ?_
      unscheduled := fun k hk x hx hwake => hunarmed k hk x.id (Or.inl ⟨⟨x, hx, rfl⟩, hwake⟩)
      unsignalled := fun k hk id hmem => hunarmed k hk id (Or.inr hmem)
      timedOut := fun newer older call ms hhistory => ?_
      slept := fun newer older call tick hhistory => ?_
      scheduled_once := fun newer older call id hhistory call' hmem => ?_
      fired_once := fun newer older id tick hhistory => ?_ }
  · rw [Wakes.isPending_eq]
    cases hpending : e.wakes.pending? k with
    | none => rfl
    | some wake =>
      obtain ⟨call, hcall, -⟩ := h.allowed k wake hpending
      rw [hk] at hcall
      cases hcall
  · obtain ⟨slot, hslot⟩ := List.mem_iff_getElem?.1 hmem
    have hplace := ((h.orderly i).slot_iff slot k).1 hslot
    rw [place, hk] at hplace
    cases hplace
  · have hexplained := h.explained
    rw [hhistory] at hexplained
    exact hexplained.explains rfl
  · have hexplained := h.explained
    rw [hhistory] at hexplained
    exact hexplained.explains tick rfl
  · have hexplained := h.explained
    rw [hhistory] at hexplained
    exact hexplained.explains _ hmem rfl
  · have hexplained := h.explained
    rw [hhistory] at hexplained
    exact hexplained.explains

/-- Whatever threads, semaphores and the clock do, no wakeup leaks from one call into the next. -/
theorem nothing_leaks (capacity : Nat) (hcap : 0 < capacity) :
    ∃ s₀, Schedule.ofCapacity capacity = .ok s₀ ∧
      ∀ (threads : Nat) (initial : Nat → Bool) (maxWaiters : Nat → Nat)
        (clocks : Nat → Option ClockClient) (tick : Tick) (events : List EnsembleEvent),
        let e := (start threads initial maxWaiters clocks { tick, schedule := s₀ }).run events
        granted e.history ≤ Schedule.maxGranted → e.NothingLeaks := by
  obtain ⟨s₀, hmade, hlock, -, hpending, -⟩ := Schedule.ofCapacity_spec hcap
  refine ⟨s₀, hmade, fun threads initial maxWaiters clocks tick events hn => ?_⟩
  have hstart := sound_start hlock hpending threads initial maxWaiters clocks tick
  exact (sound_run hstart events hn).nothingLeaks

/-- A take times out, and its thread is as it was before. -/
theorem nothing_leaks_timedOut :
    ∃ s₀, Schedule.ofCapacity 1 = .ok s₀ ∧
      let e := (start 1 (fun _ => false) (fun _ => 1) (fun _ => some ⟨7⟩)
        { tick := 0, schedule := s₀ }).run
          [.take 0 0 5, .step 0, .serve 0, .step 0, .tick 6, .deliver, .step 0, .step 0, .serve 0,
            .step 0]
      e.threads 0 = none ∧ e.wakes.isPending 0 = false ∧
        e.history.head? = some (.took 0 5 (.error (.refused .timedOut))) := by
  obtain ⟨s₀, hmade, hleaks⟩ := nothing_leaks 1 (by decide)
  refine ⟨s₀, hmade, ?_⟩
  have hrun := hleaks 1 (fun _ => false) (fun _ => 1) (fun _ => some ⟨7⟩) 0
    [.take 0 0 5, .step 0, .serve 0, .step 0, .tick 6, .deliver, .step 0, .step 0, .serve 0, .step 0]
  obtain rfl := Except.ok.inj ((show Schedule.ofCapacity 1 = .ok _ from rfl).symm.trans hmade)
  exact ⟨rfl, (hrun (by decide)).quiet 0 rfl, rfl⟩

end Ensemble

end Osal
