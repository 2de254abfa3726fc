import Osal.Proofs.Semaphore.Calls

/-!
# Whatever can wake a thread is known to its call

The invariant of ensembles, and the steps of threads. Whatever can still wake a thread is known to the
call that it is inside of: its slot to its point (`Semaphore.Orderly`), its timeout to `timer?`, a
pending wake to `Expects`. A step of a thread concerns its own call and its own notification, so that
`Sound.goOn` and `Sound.quit` are what is left to show of it.
-/

namespace Osal

namespace Ensemble

/-! ## The invariant -/

/-- Whether a timeout is pending, or fires just now, that signals a notification. -/
def Armed (e : Ensemble) (id : TimeoutId) (k : NotificationId) : Prop :=
  ((∃ x ∈ e.clock.schedule.pending, x.id = id) ∧ e.clock.schedule.wakeOf id = some k) ∨
    (id, k) ∈ e.outgoing

def place (e : Ensemble) (i : Nat) (k : NotificationId) : Option Take.Point :=
  (e.threads k).bind (·.point? i)

structure Sound (e : Ensemble) : Prop where
  lockstep : e.clock.schedule.Lockstep (granted e.history)
  oneShot : ∀ x ∈ e.clock.schedule.pending, x.periodic = false
  distinct : (e.outgoing.map (·.1) ++ e.clock.schedule.pending.map (·.id)).Nodup
  explained : Explained e.history
  named : ∀ h ∈ e.history, ∀ id, h.id? = some id → id.cptr.toNat ≤ granted e.history
  unfired : ∀ id k, e.Armed id k → ∀ tick, .fired id tick ∉ e.history
  orderly : ∀ i, (e.semaphores i).Orderly (e.place i)
  armed : ∀ id k, e.Armed id k → ∃ call, e.threads k = some call ∧ call.timer? = some id
  allowed : ∀ k wake, e.wakes.pending? k = some wake →
    ∃ call, e.threads k = some call ∧ call.Expects e.history wake
  fits : ∀ k call, e.threads k = some call → call.Fits e.history

variable {e : Ensemble} {k : NotificationId} {call : BlockingCall} {id : TimeoutId}

theorem Sound.timer?_of_armed (h : e.Sound) (hk : e.threads k = some call) (harmed : e.Armed id k) :
    call.timer? = some id := by
  obtain ⟨call', hk', htimer⟩ := h.armed id k harmed
  obtain rfl := Option.some.inj (hk.symm.trans hk')
  exact htimer

theorem Sound.expects (h : e.Sound) (hk : e.threads k = some call) {wake : Wakeup}
    (hpending : e.wakes.pending? k = some wake) : call.Expects e.history wake := by
  obtain ⟨call', hk', hexpects⟩ := h.allowed k wake hpending
  obtain rfl := Option.some.inj (hk.symm.trans hk')
  exact hexpects

theorem Sound.not_armed (h : e.Sound) (hk : e.threads k = some call) (htimer : call.timer? = none)
    (id : TimeoutId) : ¬ e.Armed id k := by
  intro harmed
  have hsome := h.timer?_of_armed hk harmed
  rw [htimer] at hsome
  cases hsome

theorem Sound.pending?_eq_none (h : e.Sound) (hk : e.threads k = some call)
    (htimer : call.timer? = none)
    (hexpects : ∀ wake, call.Expects e.history wake → call.IsTimer e.history wake) :
    e.wakes.pending? k = none := by
  cases hpending : e.wakes.pending? k with
  | none => rfl
  | some wake =>
    obtain ⟨id, tick, -, hsome, -⟩ := hexpects wake (h.expects hk hpending)
    rw [htimer] at hsome
    cases hsome

@[simp] theorem place_put (k : NotificationId) (x : Option BlockingCall) (wakes : Wakes)
    (news : List Happening) (i : Nat) :
    (e.put k x wakes news).place i = Function.update (e.place i) k (x.bind (·.point? i)) := by
  funext j
  by_cases hj : j = k
  · simp [place, put, hj]
  · simp [place, put, hj]

/-- What a thread has to show that takes a step: it touches no wake but its own, it knows what can
still wake it, and what it tells is explained. -/
theorem Sound.put (h : e.Sound) {x : Option BlockingCall} {wakes : Wakes} {news : List Happening}
    {semaphores : Nat → Semaphore} {calls : Nat}
    (hwakes : wakes = e.wakes ∨ wakes = (e.wakes.poll k).2)
    (hnews : ∀ happening ∈ news, happening.id? = none) (hexplained : Explained (news ++ e.history))
    (horderly : ∀ i,
      (semaphores i).Orderly (Function.update (e.place i) k (x.bind (·.point? i))))
    (harmed : ∀ id, e.Armed id k → ∃ call, x = some call ∧ call.timer? = some id)
    (hallowed : ∀ wake, wakes.pending? k = some wake →
      ∃ call, x = some call ∧ call.Expects e.history wake)
    (hfits : ∀ call, x = some call → call.Fits e.history) :
    Sound { e.put k x wakes news with semaphores, calls } := by
  have hgranted : granted (news ++ e.history) = granted e.history := by
    simp [granted_eq_zero hnews]
  -- the news names no timeout
  have hid : ∀ happening ∈ news ++ e.history, ∀ id, happening.id? = some id →
      happening ∈ e.history := by
    intro happening hmem id hsome
    rcases List.mem_append.1 hmem with hnew | hold
    · rw [hnews happening hnew] at hsome
      cases hsome
    · exact hold
  refine
    { lockstep := ?_, oneShot := h.oneShot, distinct := h.distinct, explained := hexplained
      named := ?_, unfired := ?_, orderly := ?_, armed := ?_, allowed := ?_, fits := ?_ }
  · show e.clock.schedule.Lockstep (granted (news ++ e.history))
    rw [hgranted]
    exact h.lockstep
  · intro happening hmem id hsome
    show _ ≤ granted (news ++ e.history)
    rw [hgranted]
    exact h.named happening (hid happening hmem id hsome) id hsome
  · intro id j harmed tick hmem
    exact h.unfired id j harmed tick (hid _ hmem id rfl)
  · intro i
    exact (place_put (e := e) k x wakes news i).symm ▸ horderly i
  · intro id j harmed'
    show ∃ call, Function.update e.threads k x j = some call ∧ _
    by_cases hj : j = k
    · subst hj
      rw [Function.update_self]
      exact harmed id harmed'
    · rw [Function.update_of_ne hj]
      exact h.armed id j harmed'
  · intro j wake hpending
    show ∃ call, Function.update e.threads k x j = some call ∧ call.Expects (news ++ e.history) wake
    by_cases hj : j = k
    · subst hj
      rw [Function.update_self]
      obtain ⟨call, hx, hexpects⟩ := hallowed wake hpending
      exact ⟨call, hx, hexpects.append news⟩
    · rw [Function.update_of_ne hj]
      have hsame : wakes.pending? j = e.wakes.pending? j := by
        rcases hwakes with rfl | rfl <;> simp [hj]
      obtain ⟨call, hx, hexpects⟩ := h.allowed j wake (hsame ▸ hpending)
      exact ⟨call, hx, hexpects.append news⟩
  · intro j call hcall
    refine BlockingCall.Fits.append news ?_
    by_cases hj : j = k
    · subst hj
      refine hfits call ?_
      simpa [Ensemble.put] using hcall
    · refine h.fits j call ?_
      simpa [Ensemble.put, hj] using hcall

theorem Sound.goOn (h : e.Sound) {call' : BlockingCall} {wakes : Wakes}
    {semaphores : Nat → Semaphore} {calls : Nat}
    (hwakes : wakes = e.wakes ∨ wakes = (e.wakes.poll k).2)
    (horderly : ∀ i, (semaphores i).Orderly (Function.update (e.place i) k (call'.point? i)))
    (htimer : ∀ id, e.Armed id k → call'.timer? = some id)
    (hexpects : ∀ wake, wakes.pending? k = some wake → call'.Expects e.history wake)
    (hfits : call'.Fits e.history) :
    Sound { e.put k (some call') wakes [] with semaphores, calls } := by
  refine h.put hwakes (fun _ hmem => ?_) h.explained horderly
    (fun id harmed => ⟨call', rfl, htimer id harmed⟩)
    (fun wake hpending => ⟨call', rfl, hexpects wake hpending⟩) (fun call hcall => ?_)
  · cases hmem
  · obtain rfl := Option.some.inj hcall
    exact hfits

theorem Sound.quit (h : e.Sound) {happening : Happening} {wakes : Wakes}
    {semaphores : Nat → Semaphore} (hwakes : wakes = e.wakes ∨ wakes = (e.wakes.poll k).2)
    (horderly : ∀ i, (semaphores i).Orderly (Function.update (e.place i) k none))
    (hquiet : ∀ id, ¬ e.Armed id k) (hpending : wakes.pending? k = none)
    (hid : happening.id? = none) (hexplains : happening.Explains e.history) :
    Sound { e.put k none wakes [happening] with semaphores } := by
  refine h.put hwakes (fun happening' hmem => ?_) ⟨hexplains, h.explained⟩ horderly
    (fun id harmed => absurd harmed (hquiet id)) (fun wake hwake => ?_) (fun call hcall => ?_)
  · obtain rfl := List.mem_singleton.1 hmem
    exact hid
  · rw [hpending] at hwake
    cases hwake
  · cases hcall

/-- A semaphore does not see a step that does not move the thread in its program. -/
theorem Sound.orderly_of_place (h : e.Sound) {i : Nat} {p : Option Take.Point}
    (hp : e.place i k = p) : (e.semaphores i).Orderly (Function.update (e.place i) k p) := by
  rw [← hp, Function.update_eq_self]
  exact h.orderly i

/-! ## Takes -/

section Take

variable {i : Nat} {timeoutMs : Int32} {p p' : Take.Point} {s' : Semaphore} {wakes : Wakes}
  {turn : Take.Turn}

theorem place_of_task (hk : e.threads k = some call) (htask : call.task = .take i timeoutMs p) :
    e.place i k = some p := by
  simp [place, hk, BlockingCall.point?, htask]

theorem Sound.orderly_advance (h : e.Sound) (hk : e.threads k = some call)
    (htask : call.task = .take i timeoutMs p)
    (hs' : s'.Orderly (Function.update (e.place i) k (Take.place turn))) (j : Nat) :
    (Function.update e.semaphores i s' j).Orderly (Function.update (e.place j) k
      (((Take.place turn).map fun p =>
        (⟨call.number, .take i timeoutMs p, none⟩ : BlockingCall)).bind (·.point? j))) := by
  by_cases hj : j = i
  · subst hj
    have hpoint : (((Take.place turn).map fun p =>
        (⟨call.number, .take j timeoutMs p, none⟩ : BlockingCall)).bind (·.point? j)) =
        Take.place turn := by
      cases turn <;> simp [Take.place, BlockingCall.point?]
    rw [Function.update_self, hpoint]
    exact hs'
  · have hout : e.place j k = none := by
      simp [place, hk, BlockingCall.point?, htask, Ne.symm hj]
    have hpoint : (((Take.place turn).map fun p =>
        (⟨call.number, .take i timeoutMs p, none⟩ : BlockingCall)).bind (·.point? j)) = none := by
      cases turn <;> simp [Take.place, BlockingCall.point?, Ne.symm hj]
    rw [Function.update_of_ne hj, hpoint]
    exact h.orderly_of_place hout

theorem Sound.take_goto (h : e.Sound) (hk : e.threads k = some call)
    (htask : call.task = .take i timeoutMs p)
    (hs' : s'.Orderly (Function.update (e.place i) k (some p')))
    (hwakes : wakes = e.wakes ∨ wakes = (e.wakes.poll k).2)
    (htimer : ∀ id, e.Armed id k →
      (⟨call.number, .take i timeoutMs p', none⟩ : BlockingCall).timer? = some id)
    (hexpects : ∀ wake, wakes.pending? k = some wake →
      (⟨call.number, .take i timeoutMs p', none⟩ : BlockingCall).Expects e.history wake)
    (hfits : (⟨call.number, .take i timeoutMs p', none⟩ : BlockingCall).Fits e.history) :
    (e.advanceTake k call.number i timeoutMs ((s', wakes), .goto p')).Sound := by
  have hin : s'.Orderly (Function.update (e.place i) k (Take.place (.goto p'))) := hs'
  exact h.goOn hwakes (h.orderly_advance hk htask hin) htimer hexpects hfits

theorem Sound.take_done (h : e.Sound) (hk : e.threads k = some call)
    (htask : call.task = .take i timeoutMs p) {outcome : Take.Outcome}
    (hs' : s'.Orderly (Function.update (e.place i) k none))
    (hwakes : wakes = e.wakes ∨ wakes = (e.wakes.poll k).2)
    (hquiet : ∀ id, ¬ e.Armed id k) (hpending : wakes.pending? k = none)
    (hexplains : (Happening.took call.number timeoutMs outcome).Explains e.history) :
    (e.advanceTake k call.number i timeoutMs ((s', wakes), .done outcome)).Sound := by
  have hout : s'.Orderly (Function.update (e.place i) k (Take.place (.done outcome))) := hs'
  exact h.quit hwakes (h.orderly_advance hk htask hout) hquiet hpending rfl hexplains

theorem Sound.take_compete (h : e.Sound) (hk : e.threads k = some call)
    (htask : call.task = .take i timeoutMs p) {s : Semaphore}
    (hcompete : ({ timeoutMs, wait := k } : Take).compete s = (s', turn))
    (hs' : s'.Orderly (Function.update (e.place i) k (Take.place turn)))
    (hwakes : wakes = e.wakes ∨ wakes = (e.wakes.poll k).2)
    (hquiet : ∀ id, ¬ e.Armed id k) (hpending : wakes.pending? k = none) :
    (e.advanceTake k call.number i timeoutMs ((s', wakes), turn)).Sound := by
  have hfresh : ∀ wake, wakes.pending? k ≠ some wake := fun wake hwake => by
    rw [hpending] at hwake
    cases hwake
  rcases Take.compete_cases { timeoutMs, wait := k } s with ⟨-, heq⟩ | ⟨-, -, heq⟩ |
    ⟨-, slot, -, heq⟩ | ⟨-, hpos, slot, -, heq⟩
  · obtain ⟨rfl, rfl⟩ := Prod.mk.inj (hcompete.symm.trans heq)
    exact h.take_done hk htask hs' hwakes hquiet hpending (fun houtcome => by cases houtcome)
  · obtain ⟨rfl, rfl⟩ := Prod.mk.inj (hcompete.symm.trans heq)
    exact h.take_done hk htask hs' hwakes hquiet hpending (fun houtcome => by cases houtcome)
  · obtain ⟨rfl, rfl⟩ := Prod.mk.inj (hcompete.symm.trans heq)
    refine h.take_goto hk htask hs' hwakes (fun id harmed => absurd harmed (hquiet id))
      (fun wake hwake => absurd hwake (hfresh wake)) ⟨?_, ?_, ?_⟩
    · intro timeout tick hheard
      cases hheard
    · intro id hnamed
      cases hnamed
    · rintro _ _ _ ⟨⟩ hbounded
      cases hbounded
  · obtain ⟨rfl, rfl⟩ := Prod.mk.inj (hcompete.symm.trans heq)
    refine h.take_goto hk htask hs' hwakes (fun id harmed => absurd harmed (hquiet id))
      (fun wake hwake => absurd hwake (hfresh wake)) ⟨?_, ?_, ?_⟩
    · intro timeout tick hheard
      cases hheard
    · intro id hnamed
      cases hnamed
    · rintro _ _ _ ⟨⟩ -
      exact hpos

/-- The end of a round. The timeout of the call is gone, and a timeout wake came from it. -/
theorem Sound.take_settle (h : e.Sound) (hk : e.threads k = some call)
    (htask : call.task = .take i timeoutMs p) {s : Semaphore} {wake : Wakeup}
    {timeout : Option TimeoutId} (hheard : call.heard? = some (timeout, wake))
    (hnamed : call.named? = timeout) (hbounded : timeout.isSome = true → p.isBounded = true)
    (htimer : call.timer? = none)
    (hs' : ({ timeoutMs, wait := k } : Take).settle s e.wakes wake = ((s', wakes), turn))
    (horderly : s'.Orderly (Function.update (e.place i) k (Take.place turn))) :
    (e.advanceTake k call.number i timeoutMs ((s', wakes), turn)).Sound := by
  have hquiet := h.not_armed hk htimer
  rcases Take.settle_cases { timeoutMs, wait := k } s e.wakes wake with ⟨tick, rfl, heq⟩ |
    ⟨rfl, heq⟩
  · obtain ⟨hpair, rfl⟩ := Prod.mk.inj (hs'.symm.trans heq)
    obtain ⟨rfl, rfl⟩ := Prod.mk.inj hpair
    refine h.take_done hk htask horderly (Or.inr rfl) hquiet (by simp) fun _ => ?_
    have hfits := h.fits k call hk
    obtain ⟨id, rfl, hfired⟩ := hfits.heard timeout tick hheard
    exact ⟨hfits.bounded i timeoutMs p htask (hbounded rfl), id, tick, hfits.owned id hnamed, hfired⟩
  · obtain ⟨hpair, rfl⟩ := Prod.mk.inj (hs'.symm.trans heq)
    obtain ⟨rfl, rfl⟩ := Prod.mk.inj hpair
    exact h.take_compete hk htask rfl horderly (Or.inr rfl) hquiet (by simp)

theorem Sound.take_answered (h : e.Sound) (hk : e.threads k = some call)
    (htask : call.task = .take i timeoutMs p) (hinside : p.isInside = true) {reply : Reply}
    (hreply : call.reply = some reply) :
    (e.advanceTake k call.number i timeoutMs
      (({ timeoutMs, wait := k } : Take).answered (e.semaphores i) e.wakes (.ok reply.toMessage)
        p)).Sound := by
  have horderly := Take.orderly_of_answered (t := { timeoutMs, wait := k }) (w := e.wakes)
    (h.orderly i) (place_of_task hk htask) hinside (.ok reply.toMessage)
  have hfits := h.fits k call hk
  obtain ⟨number, task, _⟩ := call
  obtain rfl : task = .take i timeoutMs p := htask
  obtain rfl : _ = some reply := hreply
  rcases Take.answered_cases hinside { timeoutMs, wait := k } (e.semaphores i) e.wakes
      (.ok reply.toMessage) with ⟨slot, timeout, rfl, hresult, heq⟩ |
    ⟨slot, err, rfl, hresult, heq⟩ | ⟨id, wake, rfl, heq⟩ | ⟨id, wake, err, rfl, hresult, heq⟩
  · rw [heq] at horderly ⊢
    have hgrant := Reply.grant?_of_ok hresult
    refine h.take_goto hk rfl horderly (Or.inl rfl) (fun id harmed => ?_) (fun wake hwake => ?_)
      ⟨?_, ?_, ?_⟩
    · exact hgrant.symm.trans (h.timer?_of_armed hk harmed)
    · obtain ⟨id, tick, rfl, htimer, hfired⟩ := h.expects hk hwake
      exact Or.inr ⟨id, tick, rfl, hgrant.symm.trans htimer, hfired⟩
    · intro timeout' tick hheard
      cases hheard
    · exact fun id hnamed => hfits.owned id (hgrant.trans hnamed)
    · rintro _ _ _ ⟨⟩ -
      exact hfits.bounded i timeoutMs _ rfl rfl
  · rw [heq] at horderly ⊢
    have hgrant := Reply.grant?_of_error hresult
    refine h.take_done hk rfl horderly (Or.inl rfl) (h.not_armed hk hgrant)
      (h.pending?_eq_none hk hgrant fun wake hexpects => hexpects) (fun houtcome => ?_)
    cases houtcome
    exact absurd hresult (ClockClient.scheduledOf_ne_timedOut _)
  · rw [heq] at horderly ⊢
    exact h.take_settle hk rfl rfl rfl (fun _ => rfl) rfl rfl horderly
  · rw [heq] at horderly ⊢
    refine h.take_done hk rfl horderly (Or.inr rfl) (h.not_armed hk rfl) (by simp)
      (fun houtcome => ?_)
    cases houtcome
    exact absurd hresult (ClockClient.goneOf_ne_timedOut id _)

theorem Sound.take_step (h : e.Sound) (hk : e.threads k = some call)
    (htask : call.task = .take i timeoutMs p)
    (hstep : ({ timeoutMs, wait := k } : Take).step (e.semaphores i, e.wakes) p =
      some ((s', wakes), turn)) :
    (e.advanceTake k call.number i timeoutMs ((s', wakes), turn)).Sound := by
  have horderly := Take.orderly_of_step (h.orderly i) (place_of_task hk htask) hstep
  have hfits := h.fits k call hk
  obtain ⟨number, task, reply⟩ := call
  obtain rfl : task = .take i timeoutMs p := htask
  rcases Take.step_cases hstep with ⟨rfl, -, rfl, hentered⟩ |
    ⟨slot, timeout, wake, rfl, hwake, rfl, rfl, rfl⟩ | ⟨slot, wake, rfl, -, hsettle⟩ |
    ⟨slot, id, wake, rfl, -, rfl, rfl, rfl⟩
  · have hquiet := h.not_armed hk rfl
    have hpending := h.pending?_eq_none hk rfl fun wake hexpects => hexpects
    rcases hentered with hcompete | ⟨rfl, err, herr, rfl⟩
    · exact h.take_compete hk rfl hcompete horderly (Or.inl rfl) hquiet hpending
    · refine h.take_done hk rfl horderly (Or.inl rfl) hquiet hpending (fun houtcome => ?_)
      cases houtcome
      rcases herr with herr | herr <;> cases herr
  · refine h.take_goto hk rfl horderly (Or.inr rfl) (fun id harmed => (h.timer?_of_armed hk harmed :))
      (fun _ _ => trivial) ⟨?_, fun id hnamed => hfits.owned id hnamed, ?_⟩
    · rintro timeout' tick ⟨⟩
      rcases h.expects hk hwake with hreleased | ⟨id, tick', htick, htimer, hfired⟩
      · cases hreleased
      · cases htick
        exact ⟨id, htimer, hfired⟩
    · rintro _ _ _ ⟨⟩ hbounded
      exact hfits.bounded i timeoutMs _ rfl hbounded
  · exact h.take_settle hk rfl rfl rfl (fun hsome => hsome) rfl hsettle horderly
  · refine h.take_goto hk rfl horderly (Or.inl rfl) (fun id harmed => (h.timer?_of_armed hk harmed :))
      (fun _ _ => trivial) ⟨?_, fun id hnamed => hfits.owned id hnamed, ?_⟩
    · rintro timeout' tick ⟨⟩
      exact hfits.heard (some id) tick rfl
    · rintro _ _ _ ⟨⟩ -
      exact hfits.bounded i timeoutMs _ rfl rfl

theorem Sound.stepTake (h : e.Sound) (hk : e.threads k = some call)
    (htask : call.task = .take i timeoutMs p) : (e.stepTake k call i timeoutMs p).Sound := by
  unfold Ensemble.stepTake
  by_cases hinside : p.isInside = true
  · simp only [if_pos hinside]
    cases hreply : call.reply with
    | none => exact h
    | some reply => exact h.take_answered hk htask hinside hreply
  · simp only [if_neg hinside]
    cases hstep : ({ timeoutMs, wait := k } : Take).step (e.semaphores i, e.wakes) p with
    | none => exact h
    | some next => exact h.take_step hk htask hstep

end Take

/-! ## Sleeps -/

section Sleep

variable {client : ClockClient} {ms : Tick}

theorem place_of_sleep (hk : e.threads k = some call) {p : Sleep.Point}
    (htask : call.task = .sleep client ms p) (i : Nat) : e.place i k = none := by
  simp [place, hk, BlockingCall.point?, htask]

theorem Sound.sleep_answered (h : e.Sound) (hk : e.threads k = some call)
    (htask : call.task = .sleep client ms .scheduling) {reply : Reply}
    (hreply : call.reply = some reply) :
    (e.advanceSleep k call.number client ms
      (e.wakes, Sleep.answered (.ok reply.toMessage))).Sound := by
  have hfits := h.fits k call hk
  have horderly := fun i => h.orderly_of_place (place_of_sleep hk htask i)
  obtain ⟨number, task, _⟩ := call
  obtain rfl : task = .sleep client ms .scheduling := htask
  obtain rfl : _ = some reply := hreply
  unfold advanceSleep Sleep.answered
  cases hresult : ClockClient.scheduledOf (.ok reply.toMessage) with
  | ok timeout =>
    have hgrant := Reply.grant?_of_ok hresult
    refine h.goOn (Or.inl rfl) horderly (fun id harmed => ?_) (fun wake hwake => ?_)
      ⟨fun timeout' tick hheard => ?_, fun id hnamed => ?_, fun i ms p htake => ?_⟩
    · exact hgrant.symm.trans (h.timer?_of_armed hk harmed)
    · obtain ⟨id, tick, rfl, htimer, hfired⟩ := h.expects hk hwake
      exact ⟨id, tick, rfl, hgrant.symm.trans htimer, hfired⟩
    · cases hheard
    · exact hfits.owned id (hgrant.trans hnamed)
    · cases htake
  | error err =>
    have hgrant := Reply.grant?_of_error hresult
    have hpending := h.pending?_eq_none hk hgrant fun wake hexpects => hexpects
    refine h.quit (Or.inl rfl) horderly (h.not_armed hk hgrant) hpending rfl fun tick htick => ?_
    cases htick

theorem Sound.sleep_step (h : e.Sound) (hk : e.threads k = some call) {id : TimeoutId}
    (htask : call.task = .sleep client ms (.sleeping id))
    {next : Wakes × Next Sleep.Point (Except Error Tick)}
    (hstep : ({ client, ms, wait := k } : Sleep).step e.wakes (.sleeping id) = some next) :
    (e.advanceSleep k call.number client ms next).Sound := by
  have hfits := h.fits k call hk
  have horderly := fun i => h.orderly_of_place (place_of_sleep hk htask i)
  obtain ⟨number, task, reply⟩ := call
  obtain rfl : task = .sleep client ms (.sleeping id) := htask
  rw [Sleep.step_sleeping] at hstep
  cases hwake : e.wakes.pending? k with
  | none =>
    rw [hwake] at hstep
    cases hstep
  | some wake =>
    rw [hwake] at hstep
    obtain ⟨id', tick, rfl, ⟨⟩, hfired⟩ := h.expects hk hwake
    obtain rfl := Option.some.inj hstep
    refine h.quit (Or.inr rfl) horderly (fun id' harmed => ?_) (by simp) rfl
      fun tick' htick => ?_
    · obtain rfl := Option.some.inj (h.timer?_of_armed hk harmed)
      exact h.unfired id k harmed tick hfired
    · cases htick
      exact ⟨id, hfits.owned id rfl, hfired⟩

theorem Sound.stepSleep (h : e.Sound) (hk : e.threads k = some call) {p : Sleep.Point}
    (htask : call.task = .sleep client ms p) : (e.stepSleep k call client ms p).Sound := by
  unfold Ensemble.stepSleep
  cases p with
  | scheduling =>
    cases hreply : call.reply with
    | none => exact h
    | some reply => exact h.sleep_answered hk htask hreply
  | sleeping id =>
    cases hstep : ({ client, ms, wait := k } : Sleep).step e.wakes (.sleeping id) with
    | none =>
      simp only [hstep]
      exact h
    | some next =>
      simp only [hstep]
      exact h.sleep_step hk htask hstep

end Sleep

/-! ## Beginning a call, and giving -/

theorem Sound.begin (h : e.Sound) {task : BlockingTask}
    (hfresh : ∀ number, BlockingCall.named? ⟨number, task, none⟩ = none ∧
      BlockingCall.heard? ⟨number, task, none⟩ = none)
    (hbounded : ∀ i ms p, task = .take i ms p → p = .entering) : (e.begin k task).Sound := by
  unfold Ensemble.begin
  cases hk : e.threads k with
  | some call => exact h
  | none =>
    obtain ⟨hnamed, hheard⟩ := hfresh e.calls
    refine h.goOn (Or.inl rfl) (fun i => ?_) (fun id harmed => ?_) (fun wake hwake => ?_)
      ⟨fun timeout tick hsome => ?_, fun id hsome => ?_, fun i ms p htask hsome => ?_⟩
    · have hout : e.place i k = none := by simp [place, hk]
      cases task with
      | sleep client ms p => exact h.orderly_of_place hout
      | take j ms p =>
        obtain rfl := hbounded j ms p rfl
        by_cases hj : j = i
        · subst hj
          have hin : BlockingCall.point? ⟨e.calls, .take j ms .entering, none⟩ j =
              some .entering := by simp [BlockingCall.point?]
          rw [hin]
          exact (h.orderly j).enter hout
        · have hnone : BlockingCall.point? ⟨e.calls, .take j ms .entering, none⟩ i = none := by
            simp [BlockingCall.point?, hj]
          rw [hnone]
          exact h.orderly_of_place hout
    · obtain ⟨call, hsome, -⟩ := h.armed id k harmed
      rw [hk] at hsome
      cases hsome
    · obtain ⟨call, hsome, -⟩ := h.allowed k wake hwake
      rw [hk] at hsome
      cases hsome
    · rw [hheard] at hsome
      cases hsome
    · rw [hnamed] at hsome
      cases hsome
    · obtain rfl := hbounded i ms p htask
      cases hsome

theorem Sound.give (h : e.Sound) (i : Nat) : (e.handle (.give i)).Sound := by
  cases hlocked : (e.semaphores i).locked with
  | true =>
    simp only [handle, Semaphore.give_of_locked _ hlocked]
    exact h
  | false =>
    simp only [handle, Semaphore.give_of_unlocked _ hlocked]
    refine { h with orderly := fun j => ?_, allowed := fun k wake hwake => ?_ }
    · show (Function.update e.semaphores i _ j).Orderly (e.place j)
      by_cases hj : j = i
      · subst hj
        rw [Function.update_self]
        exact (h.orderly j).setAvailable true fun _ => hlocked
      · rw [Function.update_of_ne hj]
        exact h.orderly j
    · rcases Wakes.pending?_signalAll hwake with hold | ⟨hmem, rfl⟩
      · exact h.allowed k wake hold
      · obtain ⟨_, hslot, hk⟩ := List.mem_filterMap.1 hmem
        obtain rfl : _ = some k := hk
        obtain ⟨slot, hslot⟩ := List.mem_iff_getElem?.1 hslot
        obtain ⟨p, hp, hpslot⟩ := Option.bind_eq_some_iff.1 (((h.orderly i).slot_iff slot k).1 hslot)
        have hinside := (h.orderly i).not_inside hlocked k
        rw [hp] at hinside
        obtain ⟨call, hcall, hpoint⟩ := Option.bind_eq_some_iff.1 hp
        refine ⟨call, hcall, ?_⟩
        obtain ⟨number, task, reply⟩ := call
        cases task with
        | sleep client ms p => cases hpoint
        | take j ms q =>
          simp only [BlockingCall.point?] at hpoint
          split at hpoint
          · obtain rfl := Option.some.inj hpoint
            cases q with
            | entering => cases hpslot
            | scheduling slot => cases hinside
            | waiting slot timeout => exact Or.inl rfl
            | woken slot timeout wake => trivial
            | cancelling id wake => cases hpslot
          · cases hpoint

end Ensemble

end Osal
