import Osal.Proofs.Clock.Retirement

/-!
# The wake that a cancelled timeout leaves behind

A thread that waits for a timeout and cancels it does not look at the bell again. `left_wake`: when it
returns, the bell holds the wake of the first fire since the one it heard and before the clock handled
the cancellation, if there was one. The timeout never fires again, but the next wait on the bell
returns that tick, whichever timeout it is for.

An episode is what a thread did since it last returned; `Told` says what its episode was at every
return.
-/

namespace Osal

/-- Whether a wait neither ends nor moves on with the news. -/
def VigilNews.isIdle : VigilNews → Bool
  | .returned .. | .heard (.timeout _) | .answered _ => false
  | .heard .released | .released | .granted _ | .fired .. => true

namespace Vigil

/-! ## Histories -/

/-- The timeouts that the thread heard and the cancellations that the clock handled since the thread
last returned. -/
def episode : List VigilNews → List VigilNews
  | [] => []
  | .returned .. :: _ => []
  | news :: older => if news.isIdle then episode older else news :: episode older

/-- What the thread did in a wait that is over, the latest first. -/
def waited (id : TimeoutId) (cancel : Bool) (tick : Tick) : List VigilNews :=
  if cancel then [.answered id, .heard (.timeout tick)] else [.heard (.timeout tick)]

/-- Every wait returned the tick that it heard, after its cancellation if it has one. -/
def Told : List VigilNews → Prop
  | [] => True
  | .returned id cancel result :: older =>
    (∃ tick, result = .ok tick ∧ episode older = waited id cancel tick) ∧ Told older
  | .heard _ :: older | .answered _ :: older | .released :: older | .granted _ :: older |
    .fired .. :: older => Told older

/-- A timeout did not fire after its cancellation. -/
def Silent (id : TimeoutId) : List VigilNews → Prop
  | [] => True
  | .fired id' _ _ :: older => (id' = id → .answered id ∉ older) ∧ Silent id older
  | .returned .. :: older | .heard _ :: older | .answered _ :: older | .released :: older |
    .granted _ :: older => Silent id older

def firstFire : List VigilNews → Option Tick
  | [] => none
  | .fired _ tick _ :: older => some ((firstFire older).getD tick)
  | .returned .. :: older | .heard _ :: older | .answered _ :: older | .released :: older |
    .granted _ :: older => firstFire older

variable {v v' : Vigil} {n : Nat} {id : TimeoutId} {cancel : Bool} {tick : Tick}
  {history newer older : List VigilNews} {first : VigilNews}

theorem exists_fired_of_firstFire (h : firstFire history = some tick) :
    ∃ id found, .fired id tick found ∈ history := by
  induction history with
  | nil => cases h
  | cons news older ih =>
    cases news with
    | fired id tick' found =>
      cases hfirst : firstFire older with
      | none =>
        obtain rfl : tick' = tick := by simpa [firstFire, hfirst] using h
        exact ⟨id, found, List.mem_cons_self⟩
      | some tick'' =>
        obtain rfl : tick'' = tick := by simpa [firstFire, hfirst] using h
        obtain ⟨id', found', hmem⟩ := ih hfirst
        exact ⟨id', found', List.mem_cons_of_mem _ hmem⟩
    | _ =>
      obtain ⟨id', found', hmem⟩ := ih h
      exact ⟨id', found', List.mem_cons_of_mem _ hmem⟩

theorem firstFire_eq_none (h : ∀ id tick found, .fired id tick found ∉ history) :
    firstFire history = none := by
  cases hfirst : firstFire history with
  | none => rfl
  | some tick =>
    obtain ⟨id, found, hmem⟩ := exists_fired_of_firstFire hfirst
    exact absurd hmem (h id tick found)

/-- Where nothing was heard and nobody released the thread, the bell keeps the wake it has, or takes
that of the first fire. -/
theorem unheard_append (hheard : ∀ wake, .heard wake ∉ newer) (hreleased : .released ∉ newer)
    (older : List VigilNews) :
    unheard (newer ++ older) = (unheard older).or ((firstFire newer).map .timeout) := by
  induction newer with
  | nil => simp [firstFire]
  | cons news newer ih =>
    have hnewer := ih (fun wake hmem => hheard wake (List.mem_cons_of_mem _ hmem))
      fun hmem => hreleased (List.mem_cons_of_mem _ hmem)
    cases news with
    | heard wake => exact absurd List.mem_cons_self (hheard wake)
    | released => exact absurd List.mem_cons_self hreleased
    | fired id tick found =>
      simp only [List.cons_append, unheard, hnewer, firstFire]
      cases unheard older <;> cases firstFire newer <;> rfl
    | granted | answered | returned => exact hnewer

theorem not_heard_released (h : Traced history) (hreleased : .released ∉ history) :
    unheard history ≠ some .released ∧ .heard .released ∉ history := by
  induction history with
  | nil => exact ⟨nofun, nofun⟩
  | cons news older ih =>
    have holder := fun htraced : Traced older =>
      ih htraced fun hmem => hreleased (List.mem_cons_of_mem _ hmem)
    cases news with
    | released => exact absurd List.mem_cons_self hreleased
    | granted | answered | returned => simpa [unheard] using holder h
    | heard wake =>
      obtain ⟨hunheard, hheard⟩ := holder h.2
      refine ⟨nofun, fun hmem => ?_⟩
      rcases List.mem_cons.1 hmem with heq | hmem
      · cases heq
        exact hunheard h.1
      · exact hheard hmem
    | fired id tick found =>
      obtain ⟨hunheard, hheard⟩ := holder h.2
      refine ⟨?_, by simpa using hheard⟩
      cases hwake : unheard older with
      | none => simp [hwake]
      | some wake => simpa [hwake] using hunheard

theorem Silent.not_fired (h : Silent id (newer ++ .answered id :: older)) (tick : Tick)
    (found : Option Wakeup) : .fired id tick found ∉ newer := by
  induction newer with
  | nil => exact nofun
  | cons news newer ih =>
    intro hmem
    cases news with
    | fired id' tick' found' =>
      rcases List.mem_cons.1 hmem with heq | hmem
      · cases heq
        exact h.1 rfl (List.mem_append_right _ List.mem_cons_self)
      · exact ih h.2 hmem
    | _ => exact ih h (by simpa using hmem)

theorem episode_cons {news : VigilNews}
    (hnews : ∀ id cancel result, news ≠ .returned id cancel result) :
    episode (news :: older) = if news.isIdle then episode older else news :: episode older := by
  cases news with
  | returned id cancel result => exact absurd rfl (hnews id cancel result)
  | _ => rfl

theorem episode_append (hidle : ∀ news ∈ newer, news.isIdle = true) :
    episode (newer ++ older) = episode older := by
  induction newer with
  | nil => rfl
  | cons news newer ih =>
    have hnews := hidle news List.mem_cons_self
    rw [List.cons_append, episode_cons (by rintro id cancel result rfl; cases hnews), if_pos hnews]
    exact ih fun later hmem => hidle later (List.mem_cons_of_mem _ hmem)

theorem split_of_episode {rest : List VigilNews} (h : episode history = first :: rest) :
    ∃ newer older, history = newer ++ first :: older ∧ episode older = rest ∧
      ∀ news ∈ newer, news.isIdle = true := by
  induction history with
  | nil => cases h
  | cons news history ih =>
    have hnews : ∀ id cancel result, news ≠ .returned id cancel result := by
      rintro id cancel result rfl
      cases h
    rw [episode_cons hnews] at h
    by_cases hidle : news.isIdle = true
    · rw [if_pos hidle] at h
      obtain ⟨newer, older, rfl, hrest, hnewer⟩ := ih h
      exact ⟨news :: newer, older, rfl, hrest, List.forall_mem_cons.2 ⟨hidle, hnewer⟩⟩
    · rw [if_neg hidle] at h
      obtain ⟨rfl, rfl⟩ := List.cons.inj h
      exact ⟨[], history, rfl, rfl, nofun⟩

theorem idle_of_episode {id : TimeoutId} {cancel : Bool} {result : Except Error Tick}
    (h : episode (newer ++ .returned id cancel result :: older) = [])
    (hreturned : ∀ id cancel result, .returned id cancel result ∉ newer) :
    ∀ news ∈ newer, news.isIdle = true := by
  induction newer with
  | nil => exact nofun
  | cons news newer ih =>
    rw [List.cons_append, episode_cons (by rintro _ _ _ rfl; exact hreturned _ _ _ List.mem_cons_self)]
      at h
    by_cases hidle : news.isIdle = true
    · rw [if_pos hidle] at h
      exact List.forall_mem_cons.2 ⟨hidle,
        ih h fun id cancel result hmem => hreturned id cancel result (List.mem_cons_of_mem _ hmem)⟩
    · rw [if_neg hidle] at h
      cases h

theorem split_of_waited (h : episode history = waited id cancel tick) :
    ∃ newer older, history = newer ++ .heard (.timeout tick) :: older ∧ episode older = [] ∧
      ∀ id cancel result, .returned id cancel result ∉ newer := by
  have hidle : ∀ {news : List VigilNews}, (∀ x ∈ news, x.isIdle = true) →
      ∀ id cancel result, .returned id cancel result ∉ news :=
    fun hnews id cancel result hmem => by cases hnews _ hmem
  cases cancel with
  | false =>
    obtain ⟨newer, older, rfl, hrest, hnewer⟩ := split_of_episode h
    exact ⟨newer, older, rfl, hrest, hidle hnewer⟩
  | true =>
    obtain ⟨after, middle, rfl, hmiddle, hafter⟩ := split_of_episode h
    obtain ⟨between, older, rfl, hrest, hbetween⟩ := split_of_episode hmiddle
    refine ⟨after ++ .answered id :: between, older, by simp, hrest, fun id' cancel' result hmem => ?_⟩
    rcases List.mem_append.1 hmem with hmem | hmem
    · exact hidle hafter id' cancel' result hmem
    · exact hidle hbetween id' cancel' result (by simpa using hmem)

theorem split_since_return {news rest : List VigilNews} {last : VigilNews}
    (h : news ++ last :: rest = newer ++ first :: older) (hlast : last ∉ newer) (hne : first ≠ last) :
    ∃ middle, news = newer ++ first :: middle ∧ older = middle ++ last :: rest := by
  rcases List.append_eq_append_iff.1 h with ⟨extra, rfl, heq⟩ | ⟨extra, rfl, heq⟩
  · rcases List.cons_eq_append_iff.1 heq with ⟨-, heq⟩ | ⟨extra', rfl, -⟩
    · exact absurd (List.cons.inj heq).1 hne
    · exact absurd (List.mem_append_right _ List.mem_cons_self) hlast
  · rcases List.cons_eq_append_iff.1 heq with ⟨-, heq⟩ | ⟨extra', rfl, rfl⟩
    · exact absurd (List.cons.inj heq).1.symm hne
    · exact ⟨extra', rfl, rfl⟩

/-! ## What a wait is told to have done -/

/-- Where the thread stands, and what it did since it last returned. -/
inductive Standing : Option WaitCall → List VigilNews → Prop where
  | outside : Standing none []
  | listening (id : TimeoutId) (cancel : Bool) : Standing (some { id, cancel }) []
  | cancelling (id : TimeoutId) (tick : Tick) :
    Standing (some { id, cancel := true, point := .cancelling tick }) [.heard (.timeout tick)]
  | answered (id : TimeoutId) (tick : Tick) (reply : Reply)
    (hreply : reply = .cancelled ∨ reply = .failed .failed) :
    Standing (some { id, cancel := true, point := .cancelling tick, reply := some reply })
      (waited id true tick)

/-- The history accounts for the place of the thread and for the waits that are over. -/
structure Recorded (v : Vigil) : Prop where
  standing : Standing v.call (episode v.history)
  told : Told v.history

/-- A cancellation of a timeout that is gone is as good as one of a pending timeout. -/
theorem answered_eq_ok {reply : Reply} (hreply : reply = .cancelled ∨ reply = .failed .failed)
    (w : TimeoutWait) (tick : Tick) : w.answered tick (.ok reply.toMessage) = .ok tick := by
  rcases hreply with rfl | rfl <;> rfl

@[simp] theorem episode_grantNews (reply : Reply) : episode (grantNews reply ++ history) = episode history :=
  episode_append fun news hmem => by cases reply <;> simp_all [grantNews, VigilNews.isIdle]

theorem recorded_start (threads : Nat) (bell : NotificationId) (client : ClockClient)
    (clock : ClockState) (id : TimeoutId) (cancel : Bool) :
    (start threads bell client clock id cancel).Recorded :=
  { standing := .listening id cancel
    told := trivial }

theorem Recorded.moved (h : v.Recorded) (hmoved : v.Moved v') : v'.Recorded := by
  obtain ⟨hstanding, htold⟩ := h
  generalize hdone : episode v.history = done at hstanding
  cases hmoved with
  | idle | skip | release | tick | ring | elsewhere => exact ⟨hdone ▸ hstanding, htold⟩
  | listen id cancel hcall =>
    rw [hcall] at hstanding
    cases hstanding
    exact ⟨hdone ▸ .listening id cancel, htold⟩
  | hear call tick hcall hpoint hwake hcancel =>
    rw [hcall] at hstanding
    cases hstanding with
    | listening id cancel =>
      obtain rfl : cancel = true := hcancel
      refine ⟨?_, htold⟩
      show Standing _ (.heard (.timeout tick) :: episode v.history)
      rw [hdone]
      exact .cancelling id tick
    | cancelling | answered => cases hpoint
  | finish call tick hcall hpoint hwake hcancel =>
    rw [hcall] at hstanding
    cases hstanding with
    | listening id cancel =>
      have hheard : episode (.heard (.timeout tick) :: v.history) = waited id false tick :=
        congrArg _ hdone
      exact ⟨.outside, ⟨tick, rfl, hheard⟩, htold⟩
    | cancelling | answered => cases hpoint
  | answer call tick reply clock hcall hpoint hreply hidle hhandle =>
    rw [hcall] at hstanding
    cases hstanding with
    | listening => cases hpoint
    | answered => cases hreply
    | cancelling id tick' =>
      cases hpoint
      refine ⟨?_, htold⟩
      show Standing _ (.answered id :: episode v.history)
      rw [hdone]
      have hcancelled := v.clock.reply_cancel v.client.badge id
      rw [hhandle] at hcancelled
      exact .answered id tick reply hcancelled
  | close call tick reply hcall hpoint hreply =>
    rw [hcall] at hstanding
    cases hstanding with
    | listening => cases hpoint
    | cancelling => cases hreply
    | answered id tick' reply' hcancelled =>
      cases hpoint
      cases hreply
      exact ⟨.outside, ⟨tick, answered_eq_ok hcancelled _ tick, hdone⟩, htold⟩
  | request badge request reply clock hidle hhandle =>
    refine ⟨?_, ?_⟩
    · show Standing _ (episode (grantNews reply ++ v.history))
      rw [episode_grantNews, hdone]
      exact hstanding
    · cases reply <;> exact htold

theorem Recorded.run (h : v.Recorded) (events : List VigilEvent) : (v.run events).Recorded :=
  run_induction (fun _ _ h hmoved => h.moved hmoved) h events

/-! ## After the cancellation -/

/-- Once its cancellation was handled, a timeout is retired and does not fire. -/
structure Settled (n : Nat) (id : TimeoutId) (v : Vigil) : Prop where
  lockstep : v.clock.schedule.Lockstep (n + granted v.history)
  known : id.cptr.toNat ≤ n + granted v.history
  retired : .answered id ∈ v.history → Retired n id v
  silent : Silent id v.history

theorem settled_start {s : Schedule} (hlock : s.Lockstep n) {x : TimeoutEntry} (hx : x ∈ s.pending)
    (threads : Nat) (bell : NotificationId) (client : ClockClient) (tick : Tick) (cancel : Bool) :
    Settled n x.id (start threads bell client { tick, schedule := s } x.id cancel) :=
  { lockstep := hlock
    known := hlock.named x hx
    retired := nofun
    silent := trivial }

theorem Moved.answered (h : v.clock.schedule.Lockstep n) (hmoved : v.Moved v')
    (hmem : .answered id ∈ v'.history) : .answered id ∈ v.history ∨
      (∀ x ∈ v'.clock.schedule.pending, x.id ≠ id) ∧ ∀ k, (id, k) ∉ v'.outgoing := by
  cases hmoved with
  | idle | listen | tick | elsewhere => exact Or.inl hmem
  | skip | hear | finish | close | release | ring => exact Or.inl (by simpa using hmem)
  | request badge request reply =>
    refine Or.inl ((List.mem_append.1 hmem).resolve_left fun hnew => ?_)
    cases reply <;> simp [grantNews] at hnew
  | answer call tick reply clock hcall hpoint hreply hidle hhandle =>
    rcases List.mem_cons.1 hmem with heq | hold
    · cases heq
      refine Or.inr ⟨?_, fun k hk => by rw [hidle] at hk; cases hk⟩
      rcases ClockState.handle_cases h v.client.badge (.cancelTimeout call.id) with
        ⟨reply', heq, -, habsent⟩ | ⟨id, schedule, heq, hid, -, hpending⟩ | ⟨_, _, _, _, _, -, hne, -⟩
      · obtain ⟨rfl, rfl⟩ := Prod.mk.inj (hhandle.symm.trans heq)
        exact habsent call.id rfl
      · obtain ⟨rfl, rfl⟩ := Prod.mk.inj (hhandle.symm.trans heq)
        cases hid
        intro x hx
        rw [hpending, List.mem_filter, bne_iff_ne] at hx
        exact hx.2
      · cases hne
    · exact Or.inl hold

theorem Settled.moved (h : Settled n id v) (hmoved : v.Moved v')
    (hn : n + granted v'.history ≤ Schedule.maxGranted) : Settled n id v' := by
  have hlock := (hmoved.rescheduled h.lockstep hn).lockstep h.lockstep
  have hknown : id.cptr.toNat ≤ n + granted v'.history :=
    Nat.le_trans h.known (Nat.add_le_add_left (granted_mono hmoved.suffix) n)
  refine ⟨hlock, hknown, fun hmem => ?_, ?_⟩
  · rcases hmoved.answered h.lockstep hmem with hold | ⟨hpending, hout⟩
    · exact (h.retired hold).moved hmoved hn
    · exact ⟨hlock, hknown, hpending, hout⟩
  · have hsilent := h.silent
    cases hmoved with
    | ring id' outgoing hout =>
      refine ⟨fun heq hmem => ?_, hsilent⟩
      subst heq
      exact (h.retired hmem).outgoing v.bell (hout ▸ List.mem_cons_self)
    | request badge request reply => cases reply <;> exact hsilent
    | _ => exact hsilent

theorem Settled.run (h : Settled n id v) (events : List VigilEvent)
    (hn : n + granted (v.run events).history ≤ Schedule.maxGranted) :
    Settled n id (v.run events) :=
  run_induction_of_le (fun _ _ h hmoved hn => h.moved hmoved hn) h events hn

/-- What a wait leaves behind that cancelled a timeout and returned. -/
structure Aftermath (n : Nat) (v : Vigil) (id : TimeoutId) (left : Option Tick) : Prop where
  held : v.wakes.pending? v.bell = left.map .timeout
  /-- The timeout does not fire again, whatever happens. -/
  silent : ∀ more, n + granted (v.run more).history ≤ Schedule.maxGranted →
    ∃ news, (v.run more).history = news ++ v.history ∧ ∀ tick found, .fired id tick found ∉ news
  /-- The next wait, while only its own timeout signals the bell, returns the tick that was left, and
  else one at which its timeout fired. -/
  next : ∀ more id' cancel result news,
    (v.run more).history = .returned id' cancel result :: (news ++ v.history) →
    (∀ id cancel result, .returned id cancel result ∉ news) → .released ∉ news →
    (∀ id tick found, .fired id tick found ∈ news → id = id') →
      ∃ tick, result = .ok tick ∧ match left with
        | some earlier => tick = earlier
        | none => ∃ found, .fired id' tick found ∈ news

theorem Traced.of_append (h : Traced (newer ++ older)) : Traced older := by
  induction newer with
  | nil => exact h
  | cons news newer ih =>
    cases news with
    | heard | fired => exact ih h.2
    | released | granted | answered | returned => exact ih h

/-- A wait that began with a tick in the bell returns it, and else one at which a timeout fired
meanwhile. -/
theorem tick_of_waited {news rest : List VigilNews} {id' : TimeoutId} {cancel' : Bool}
    {result : Except Error Tick} {left : Option Tick}
    (htraced : Traced (news ++ .returned id cancel result :: rest))
    (hleft : unheard rest = left.map .timeout) (hrest : .released ∉ rest)
    (hepisode : episode (news ++ .returned id cancel result :: rest) = waited id' cancel' tick)
    (hreturned : ∀ id cancel result, .returned id cancel result ∉ news)
    (hreleased : .released ∉ news) :
    match left with
    | some earlier => tick = earlier
    | none => ∃ id found, .fired id tick found ∈ news := by
  obtain ⟨newer, older, hsplit, hbegan, hnewer⟩ := split_of_waited hepisode
  -- it heard the tick after the earlier wait returned, and nothing between
  obtain ⟨middle, rfl, rfl⟩ := split_since_return hsplit (hnewer id cancel result) nofun
  have hidle := idle_of_episode hbegan fun id cancel result hmem =>
    hreturned id cancel result (List.mem_append_right _ (List.mem_cons_of_mem _ hmem))
  have hsince : .released ∉ middle := fun hmem =>
    hreleased (List.mem_append_right _ (List.mem_cons_of_mem _ hmem))
  have hnever : .released ∉ middle ++ .returned id cancel result :: rest := by
    simp [hsince, hrest]
  rw [List.append_assoc, List.cons_append] at htraced
  obtain ⟨hwake, htraced⟩ := htraced.of_append
  have hheard : ∀ wake, .heard wake ∉ middle := by
    intro wake hmem
    cases wake with
    | released => exact (not_heard_released htraced hnever).2 (List.mem_append_left _ hmem)
    | timeout tick => cases hidle _ hmem
  rw [unheard_append hheard hsince, show unheard (.returned id cancel result :: rest) = _ from hleft]
    at hwake
  cases left with
  | some earlier =>
    cases hwake
    rfl
  | none =>
    obtain ⟨tick', hfirst, heq⟩ := Option.map_eq_some_iff.1 hwake
    cases heq
    obtain ⟨id'', found, hmem⟩ := exists_fired_of_firstFire hfirst
    exact ⟨id'', found, List.mem_append_right _ (List.mem_cons_of_mem _ hmem)⟩

theorem aftermath_of_returned (hheeds : v.Heeds) (hrecorded : v.Recorded) (hsettled : Settled n id v)
    {result : Except Error Tick} {rest : List VigilNews}
    (hhistory : v.history = .returned id true result :: rest) (hreleased : .released ∉ rest)
    (honly : ∀ id' tick found, .fired id' tick found ∈ rest → id' = id) :
    ∃ tick after between before, result = .ok tick ∧
      rest = after ++ .answered id :: (between ++ .heard (.timeout tick) :: before) ∧
      (∀ wake, .heard wake ∉ after ++ between) ∧ v.Aftermath n id (firstFire between) := by
  have htold := hrecorded.told
  have htraced := hheeds.traced
  have hsilent := hsettled.silent
  rw [hhistory] at htold htraced hsilent
  obtain ⟨⟨tick, rfl, hepisode⟩, -⟩ := htold
  obtain ⟨after, middle, rfl, hmiddle, hafter⟩ := split_of_episode hepisode
  obtain ⟨between, before, rfl, -, hbetween⟩ := split_of_episode hmiddle
  have hheard : ∀ wake, .heard wake ∉ after ++ between := by
    intro wake hmem
    cases wake with
    | released =>
      refine (not_heard_released htraced (by simpa using hreleased)).2 ?_
      rcases List.mem_append.1 hmem with hmem | hmem <;> simp [hmem]
    | timeout tick' =>
      rcases List.mem_append.1 hmem with hmem | hmem
      · cases hafter _ hmem
      · cases hbetween _ hmem
  -- after the clock handled the cancellation no timeout fired
  have hquiet : firstFire after = none := by
    refine firstFire_eq_none fun id' tick' found hmem => ?_
    obtain rfl := honly id' tick' found (List.mem_append_left _ hmem)
    exact Silent.not_fired hsilent tick' found hmem
  have hleft : unheard (after ++ .answered id :: (between ++ .heard (.timeout tick) :: before)) =
      (firstFire between).map .timeout := by
    rw [unheard_append (fun wake hmem => hheard wake (List.mem_append_left _ hmem))
      (fun hmem => hreleased (List.mem_append_left _ hmem)), hquiet, Option.map_none, Option.or_none]
    show unheard (between ++ .heard (.timeout tick) :: before) = _
    exact unheard_append (fun wake hmem => hheard wake (List.mem_append_right _ hmem))
      (fun hmem => hreleased (by simp [hmem])) _
  refine ⟨tick, after, between, before, rfl, rfl, hheard, ?_, fun more hn => ?_, ?_⟩
  · rw [hheeds.pending, hhistory]
    exact hleft
  · exact ((hsettled.retired (by simp [hhistory])).run more hn).2
  · intro more id' cancel result news hmore hreturned hnews honly'
    have htold' := (hrecorded.run more).told
    have htraced' := (hheeds.run more).traced
    rw [hmore, hhistory] at htold' htraced'
    obtain ⟨⟨tick', rfl, hepisode'⟩, -⟩ := htold'
    have htick := tick_of_waited htraced' hleft hreleased hepisode' hreturned hnews
    refine ⟨tick', rfl, ?_⟩
    cases hfirst : firstFire between with
    | some earlier =>
      rw [hfirst] at htick
      exact htick
    | none =>
      rw [hfirst] at htick
      obtain ⟨id'', found, hmem⟩ := htick
      exact ⟨found, honly' id'' tick' found hmem ▸ hmem⟩

/-- A wait that returns after it cancelled its timeout, where nothing else signalled the bell, returns
the tick that it heard. The first fire between that and the cancellation, if there was one, left its
wake in the bell. -/
theorem left_wake {capacity : Nat} {s₀ : Schedule} (hmade : Schedule.ofCapacity capacity = .ok s₀)
    (ops : List Schedule.Op) {x : TimeoutEntry} (hx : x ∈ (s₀.run ops).2.pending) {threads : Nat}
    {bell : NotificationId} (hbell : bell < threads) (client : ClockClient) (now : Tick)
    (events : List VigilEvent) (result : Except Error Tick) (rest : List VigilNews) :
    let n := Schedule.grants (s₀.run ops).1
    let v := (start threads bell client { tick := now, schedule := (s₀.run ops).2 } x.id true).run
      events
    n + granted v.history ≤ Schedule.maxGranted → v.history = .returned x.id true result :: rest →
    .released ∉ rest → (∀ id tick found, .fired id tick found ∈ rest → id = x.id) →
    ∃ tick after between before, result = .ok tick ∧
      rest = after ++ .answered x.id :: (between ++ .heard (.timeout tick) :: before) ∧
      (∀ wake, .heard wake ∉ after ++ between) ∧ v.Aftermath n x.id (firstFire between) := by
  intro n v hn hhistory hreleased honly
  have hlock : (s₀.run ops).2.Lockstep n :=
    Schedule.lockstep_of_run hmade ops (Nat.le_trans (Nat.le_add_right ..) hn)
  have hheeds : v.Heeds := (heeds_start hbell client _ x.id true).run events
  have hrecorded : v.Recorded := (recorded_start threads bell client _ x.id true).run events
  have hsettled : Settled n x.id v :=
    (settled_start hlock hx threads bell client now true).run events hn
  exact aftermath_of_returned hheeds hrecorded hsettled hhistory hreleased honly

/-- The clock ticks between the receipt of the first fire and the cancellation, and a wait for a timeout
that is far from due returns at once. -/
theorem left_wake_misleads :
    ∃ s₀, Schedule.ofCapacity 2 = .ok s₀ ∧
      let s := (s₀.run [.insert 0 0 true 10 0]).2
      ∃ x ∈ s.pending, x.periodic = true ∧ s.wakeOf x.id = some 0 ∧
        let v := (start 1 0 ⟨0⟩ { tick := 0, schedule := s } x.id true).run
          [.tick 10, .deliver, .step, .tick 10, .deliver, .serve, .step]
        v.history.head? = some (.returned x.id true (.ok 10)) ∧
          v.wakes.pending? 0 = some (.timeout 20) ∧ ∃ id ≠ x.id,
            let v' := v.run [.request 0 (.setTimeout false 1000 0), .listen id false, .step]
            v'.history.head? = some (.returned id false (.ok 20)) ∧
              ∀ tick found, .fired id tick found ∉ v'.history := by
  refine ⟨_, rfl, ⟨⟨.ofNat 1, by decide⟩, 0, true, 10, 10⟩, List.mem_singleton_self _, rfl, rfl, rfl,
    rfl, ⟨.ofNat 2, by decide⟩, by decide, rfl, fun tick found => ?_⟩
  show _ ∉ [VigilNews.returned ⟨.ofNat 2, by decide⟩ false (.ok 20), .heard (.timeout 20),
    .granted ⟨.ofNat 2, by decide⟩, .returned ⟨.ofNat 1, by decide⟩ true (.ok 10),
    .answered ⟨.ofNat 1, by decide⟩, .fired ⟨.ofNat 1, by decide⟩ 20 none, .heard (.timeout 10),
    .fired ⟨.ofNat 1, by decide⟩ 10 none]
  simp

/-- The tick that is left over is the one between the receipt and the cancellation. -/
theorem left_wake_one_tick :
    ∃ s₀, Schedule.ofCapacity 2 = .ok s₀ ∧
      let s := (s₀.run [.insert 0 0 true 10 0]).2
      ∃ x ∈ s.pending, 0 < 1 ∧
        let v := (start 1 0 ⟨0⟩ { tick := 0, schedule := s } x.id true).run
          [.tick 10, .deliver, .step, .tick 10, .deliver, .serve, .step]
        ∃ rest, v.history = .returned x.id true (.ok 10) :: rest ∧ v.Aftermath 1 x.id (some 20) := by
  refine ⟨_, rfl, ⟨⟨.ofNat 1, by decide⟩, 0, true, 10, 10⟩, List.mem_singleton_self _, Nat.one_pos,
    [.answered ⟨.ofNat 1, by decide⟩, .fired ⟨.ofNat 1, by decide⟩ 20 none, .heard (.timeout 10),
      .fired ⟨.ofNat 1, by decide⟩ 10 none], rfl, ?_⟩
  obtain ⟨tick, after, between, before, -, -, -, hafter⟩ :=
    left_wake (x := ⟨⟨.ofNat 1, by decide⟩, 0, true, 10, 10⟩)
      (show Schedule.ofCapacity 2 = .ok _ from rfl) [.insert 0 0 true 10 0]
      (List.mem_singleton_self _) Nat.one_pos ⟨0⟩ 0
      [.tick 10, .deliver, .step, .tick 10, .deliver, .serve, .step] (.ok 10)
      [.answered ⟨.ofNat 1, by decide⟩, .fired ⟨.ofNat 1, by decide⟩ 20 none, .heard (.timeout 10),
        .fired ⟨.ofNat 1, by decide⟩ 10 none] (by decide) rfl (by simp)
      (by grind)
  have hleft : firstFire between = some 20 := by
    obtain ⟨tick', hfirst, heq⟩ := Option.map_eq_some_iff.1 hafter.held.symm
    cases heq
    exact hfirst
  exact hleft ▸ hafter

end Vigil

end Osal
