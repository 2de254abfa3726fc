import Osal.Proofs.Clock.Running
import Osal.Proofs.Endpoint.Slots

/-!
# The running clock is consistent

`always_consistent`: whatever the clients do, and whenever the timer loop and the server loop take their
steps, the tick is the period times the interrupts that were stored. A timeout is granted at the tick
of the last fire, and while it is pending every later fire looks at it, and none before did. The time
does not go back from one call to the next one; and if interrupts are raised one after another, then
each call that raised one returns when it was worked off.
-/

namespace Osal

namespace RunningClock

variable {period : Tick} {c : RunningClock} {clock clock' : SysClock} {t t' : Tally}
  {history past : List Deed} {deed : Deed} {s s' : Schedule} {numbers : Nat → Nat}
  {e e' : Endpoint NotificationId} {phase phase' : ServerPhase}

/-! ## Interrupts -/

/-- The tick is the one of all interrupts that were stored, and no interrupt is lost on its way. -/
structure Paced (period : Tick) (clock : SysClock) (t : Tally) : Prop where
  period_eq : clock.period = period
  tick : clock.state.tick = tickAfter period t.stored
  last : clock.timerPhase ≠ .ticked → clock.state.tick = t.tick
  stored : t.stored = t.fired + if clock.timerPhase = .ticked then 1 else 0
  acknowledged : t.acknowledged + (if clock.timerPhase = .fired then 1 else 0) ≤ t.fired
  raised : t.stored + (if clock.timerPhase = .interrupted then 1 else 0) +
    clock.timer.device.interrupts = t.raised
  heard : t.heard + clock.timer.device.acknowledgements ≤ t.acknowledged

theorem Paced.timer {wakes wakes' : Wakes} (h : Paced period c.clock (tally c.history))
    (hstep : c.clock.TimerSteps wakes clock' wakes') :
    Paced period clock' (tally (c.timerNews clock' ++ c.history)) := by
  obtain ⟨hperiod, htick, hlast, hstored, hacknowledged, hraised, hheard⟩ := h
  cases hstep with
  | interrupt hphase hwait =>
    obtain ⟨hinterrupts, hacks, -⟩ := ClockTimer.device_of_waitInterrupt hwait
    simp only [timerNews, hphase, List.nil_append, reduceCtorEq, if_false, Nat.add_zero] at *
    refine ⟨hperiod, htick, fun _ => hlast (by decide), hstored, hacknowledged, ?_, hacks ▸ hheard⟩
    simp only [if_true]
    omega
  | stop hphase hwait =>
    have hdevice := ClockTimer.device_of_stopped hwait
    simp only [timerNews, hphase, List.nil_append, reduceCtorEq, if_false, Nat.add_zero] at *
    refine ⟨hperiod, htick, fun _ => hlast (by decide), hstored, hacknowledged, ?_, ?_⟩
    · simp only [ClockTimer.stop, ManualTimer.dropDevice, hdevice, reduceCtorEq, if_false, Nat.add_zero]
      exact hraised
    · simp only [ClockTimer.stop, ManualTimer.dropDevice, hdevice]
      exact hheard
  | store hphase =>
    simp only [timerNews, hphase, reduceCtorEq, if_false, if_true, Nat.add_zero] at *
    refine ⟨hperiod, ?_, fun hne => (hne rfl).elim, ?_, hacknowledged, ?_, hheard⟩
    · rw [ClockState.advance, htick, hperiod]
      exact (tickAfter_succ period _).symm
    · exact congrArg (· + 1) hstored
    · exact hraised
  | fire hphase =>
    simp only [timerNews, hphase, reduceCtorEq, if_false, if_true, Nat.add_zero] at *
    refine ⟨hperiod, htick, fun _ => rfl, hstored, ?_, hraised, hheard⟩
    exact Nat.succ_le_succ hacknowledged
  | @acknowledge timer hphase hack =>
    have hdevice := ClockTimer.device_of_acknowledge hack
    obtain ⟨hinterrupts, hacks, -⟩ := ManualTimer.acknowledge_spec c.clock.timer.device
    rw [← hdevice] at hinterrupts hacks
    simp only [timerNews, hphase, reduceCtorEq, if_false, if_true, Nat.add_zero] at *
    refine ⟨hperiod, htick, fun _ => hlast (by decide), hstored, hacknowledged, ?_, ?_⟩
    · rw [hinterrupts]
      exact hraised
    · change (tally c.history).heard + timer.device.acknowledgements ≤
        (tally c.history).acknowledged + 1
      omega
  | fail hphase hack =>
    simp only [timerNews, hphase, List.nil_append, reduceCtorEq, if_false, if_true,
      Nat.add_zero] at *
    exact ⟨hperiod, htick, fun _ => hlast (by decide), hstored, Nat.le_of_succ_le hacknowledged, hraised, hheard⟩

theorem Paced.of_same (h : Paced period clock t) (hperiod : clock'.period = clock.period)
    (htick : clock'.state.tick = clock.state.tick)
    (hphase : clock'.timerPhase = clock.timerPhase) (hdevice : clock'.timer = clock.timer)
    (hstored : t'.stored = t.stored) (hfired : t'.fired = t.fired) (hlast : t'.tick = t.tick)
    (hacknowledged : t'.acknowledged = t.acknowledged) (hraised : t'.raised = t.raised)
    (hheard : t'.heard = t.heard) : Paced period clock' t' := by
  obtain ⟨h₁, h₂, h₃, h₄, h₅, h₆, h₇⟩ := h
  constructor <;>
    simpa only [hperiod, htick, hphase, hdevice, hstored, hfired, hlast, hacknowledged, hraised,
      hheard]

theorem Paced.raise {device : ManualTimer} {p : ManualTimer.FirePoint}
    {next : Next ManualTimer.FirePoint (Except PlatformError Unit)}
    (h : Paced period clock (tally past)) (raiser : Nat)
    (hstep : ManualTimer.FireSteps clock.timer.device p device next) :
    Paced period (withDevice clock device) (tally (raiserNews raiser p next :: past)) := by
  obtain ⟨hperiod, htick, hlast, hstored, hacknowledged, hraised, hheard⟩ := h
  cases hstep with
  | finish | dead | abandon =>
    exact ⟨hperiod, htick, hlast, hstored, hacknowledged, hraised, hheard⟩
  | raise left =>
    refine ⟨hperiod, htick, hlast, hstored, hacknowledged, ?_, hheard⟩
    exact congrArg (· + 1) hraised
  | hear left hpos =>
    refine ⟨hperiod, htick, hlast, hstored, hacknowledged, hraised, ?_⟩
    change (tally past).heard + 1 + (clock.timer.device.acknowledgements - 1) ≤
      (tally past).acknowledged
    omega

/-- Where a thread stands while it is the only one to raise an interrupt. -/
def AtTurn (live : Bool) (t : Tally) : ManualTimer.FirePoint → Prop
  | .raise 1 => live = true → t.raised = t.ended ∧ t.heard = t.ended
  | .await 0 => t.raised = t.ended + 1 ∧ t.heard = t.ended
  | .raise 0 => t.raised = t.ended + 1 ∧ t.heard = t.ended + 1
  | _ => False

/-- Interrupts are raised one after another, as long as the device is there. -/
structure Turns (raisers : Nat → Option ManualTimer.FirePoint) (live : Bool) (t : Tally) : Prop where
  idle : t.begun = t.ended →
    (∀ raiser, raisers raiser = none) ∧ (live = true → t.raised = t.ended ∧ t.heard = t.ended)
  busy : ∀ raiser p, raisers raiser = some p →
    t.begun = t.ended + 1 ∧ (∀ other, raisers other ≠ none → other = raiser) ∧ AtTurn live t p

namespace Turns

variable {raisers : Nat → Option ManualTimer.FirePoint} {live live' : Bool} {raiser : Nat}
  {p q : ManualTimer.FirePoint}

theorem of_same (h : Turns raisers live t) (hlive : live' = true → live = true)
    (hbegun : t'.begun = t.begun) (hended : t'.ended = t.ended) (hraised : t'.raised = t.raised)
    (hheard : t'.heard = t.heard) : Turns raisers live' t' where
  idle heq := by
    rw [hbegun, hended] at heq
    rw [hended, hraised, hheard]
    exact ⟨(h.idle heq).1, fun hnew => (h.idle heq).2 (hlive hnew)⟩
  busy raiser p hp := by
    obtain ⟨hlast, honly, hturn⟩ := h.busy raiser p hp
    refine ⟨by rw [hbegun, hended, hlast], honly, ?_⟩
    match p, hturn with
    | .raise 0, hturn | .await 0, hturn =>
      rw [AtTurn, hended, hraised, hheard]
      exact hturn
    | .raise 1, hturn =>
      rw [AtTurn, hended, hraised, hheard]
      exact fun hnew => hturn (hlive hnew)

theorem begin (h : Turns raisers live (tally past)) (hlast : (tally past).begun = (tally past).ended)
    (raiser : Nat) :
    Turns (Function.update raisers raiser (some (.raise 1))) live
      (tally (.begun raiser :: past)) where
  idle heq := absurd heq (by rw [tally, ← hlast]; exact Nat.succ_ne_self _)
  busy other p hp := by
    obtain ⟨hnone, hcounts⟩ := h.idle hlast
    have honly : ∀ other, Function.update raisers raiser (some (.raise 1)) other ≠ none →
        other = raiser := by
      intro other hsome
      by_contra hother
      rw [Function.update_of_ne hother] at hsome
      exact hsome (hnone other)
    obtain rfl := honly other (by rw [hp]; exact Option.some_ne_none p)
    rw [Function.update_self] at hp
    obtain rfl := Option.some.inj hp
    exact ⟨congrArg (· + 1) hlast, honly, hcounts⟩

theorem goto (h : Turns raisers live t) (hp : raisers raiser = some p) (hq : AtTurn live t' q)
    (hbegun : t'.begun = t.begun) (hended : t'.ended = t.ended) :
    Turns (Function.update raisers raiser (some q)) live t' where
  idle heq := by
    rw [hbegun, hended, (h.busy raiser p hp).1] at heq
    exact absurd heq (Nat.succ_ne_self _)
  busy other q' hq' := by
    obtain ⟨hlast, honly, -⟩ := h.busy raiser p hp
    have honly' : ∀ other, Function.update raisers raiser (some q) other ≠ none →
        other = raiser := by
      intro other hsome
      by_contra hother
      rw [Function.update_of_ne hother] at hsome
      exact hother (honly other hsome)
    obtain rfl := honly' other (by rw [hq']; exact Option.some_ne_none q')
    rw [Function.update_self] at hq'
    obtain rfl := Option.some.inj hq'
    exact ⟨by rw [hbegun, hended, hlast], honly', hq⟩

theorem finish (h : Turns raisers live (tally past)) (hp : raisers raiser = some p)
    (hcounts : live = true → (tally past).raised = (tally past).ended + 1 ∧
      (tally past).heard = (tally past).ended + 1) (result : Except PlatformError Unit) :
    Turns (Function.update raisers raiser none) live (tally (.ended raiser result :: past)) := by
  obtain ⟨hlast, honly, -⟩ := h.busy raiser p hp
  have hnone : ∀ other, Function.update raisers raiser none other = none := by
    intro other
    by_cases hother : other = raiser
    · rw [hother, Function.update_self]
    · rw [Function.update_of_ne hother]
      by_contra hsome
      exact hother (honly other hsome)
  refine ⟨fun _ => ⟨hnone, hcounts⟩, fun other q hq => ?_⟩
  rw [hnone] at hq
  cases hq

theorem step {device device' : ManualTimer}
    {next : Next ManualTimer.FirePoint (Except PlatformError Unit)}
    (h : Turns raisers device.deviceLive (tally past)) (hp : raisers raiser = some p)
    (hstep : ManualTimer.FireSteps device p device' next) :
    Turns (Function.update raisers raiser (place next)) device'.deviceLive
      (tally (raiserNews raiser p next :: past)) := by
  obtain ⟨-, -, hturn⟩ := h.busy raiser p hp
  cases hstep with
  | finish => exact h.finish hp (fun _ => hturn) _
  | dead left hdead | abandon left hdead =>
    refine h.finish hp (fun hlive => ?_) _
    rw [hdead] at hlive
    cases hlive
  | raise left hlive =>
    cases left with
    | succ => exact hturn.elim
    | zero =>
      obtain ⟨hraised, hheard⟩ := hturn hlive
      exact h.goto hp ⟨congrArg (· + 1) hraised, hheard⟩ rfl rfl
  | hear left =>
    cases left with
    | succ => exact hturn.elim
    | zero => exact h.goto hp ⟨hturn.1, congrArg (· + 1) hturn.2⟩ rfl rfl

end Turns

/-! ## Timeouts -/

/-- Every pending timeout has a number of its own, and is as it was granted. -/
structure Entries (s : Schedule) (numbers : Nat → Nat) (history : List Deed) : Prop where
  sound : ∃ free alloc, s.entries.Sound free alloc
  nodup : ((numbered s numbers).map (·.1)).Nodup
  isPending : ∀ entry ∈ numbered s numbers, IsPending entry history

theorem IsPending.lt_length {entry : Nat × TimeoutEntry} (h : IsPending entry past) :
    entry.1 < (tally past).grants.length := by
  obtain ⟨made, hmade, -⟩ := h.1
  exact (List.getElem?_eq_some_iff.1 hmade).1

theorem IsPending.tell {entry : Nat × TimeoutEntry} (h : IsPending entry past)
    (hlooks : LooksAt entry.1 past deed) : IsPending entry (deed :: past) := by
  obtain ⟨⟨made, hmade, hcontinues⟩, hlaw⟩ := h
  have hgrants := (tally_mono [deed] past).2.1
  exact ⟨⟨made, getElem?_of_initial hgrants hmade, hcontinues⟩, lawful_cons.2 ⟨hlooks, hlaw⟩⟩

theorem looksAt_of_new (h : Lawful (Law period) history) :
    Lawful (LooksAt (tally history).grants.length) history := by
  rintro later deed past rfl now pending seen due rfl
  obtain ⟨-, -, hseen, -, -, hpending⟩ := h later _ past rfl
  have hle := (tally_mono later (.fired now pending seen due :: past)).2.1.length_le
  have hle : (tally past).grants.length ≤
      (tally (later ++ .fired now pending seen due :: past)).grants.length := hle
  generalize (tally (later ++ .fired now pending seen due :: past)).grants.length = number at hle ⊢
  constructor
  · intro hmem
    rw [hseen] at hmem
    obtain ⟨entry, hentry, hnumber⟩ := List.mem_map.1 hmem
    have hlt := (hpending entry hentry).lt_length
    omega
  · intro hlt
    omega

theorem numbered_grant (hsound : ∃ free alloc, s'.entries.Sound free alloc) {slot : Handle}
    {e : TimeoutEntry} (htoList : s'.entries.toList = s.entries.toList ++ [(slot, e)])
    (numbers : Nat → Nat) (number : Nat) :
    numbered s' (Function.update numbers slot.index number) =
      numbered s numbers ++ [(number, e)] := by
  obtain ⟨free, alloc, hpool⟩ := hsound
  have hnodup := hpool.alloc_holds.nodup
  rw [← hpool.map_index_toList, htoList, List.map_append, List.nodup_append] at hnodup
  have hfresh : ∀ entry ∈ s.entries.toList, entry.1.index ≠ slot.index := by
    intro entry hentry
    exact hnodup.2.2 _ (List.mem_map_of_mem hentry) _ (List.mem_singleton_self _)
  rw [numbered, htoList, List.map_append, numbered]
  congr 1
  · apply List.map_congr_left
    intro entry hentry
    rw [Function.update_of_ne (hfresh entry hentry)]
  · rw [List.map_singleton, Function.update_self]

namespace Entries

theorem tell (h : Entries s numbers past) (hdeed : ∀ now pending seen due,
    deed ≠ .fired now pending seen due) : Entries s numbers (deed :: past) where
  sound := h.sound
  nodup := h.nodup
  isPending entry hentry :=
    (h.isPending entry hentry).tell fun now pending seen due heq =>
      (hdeed now pending seen due heq).elim

theorem left (h : Entries s numbers past) (hsound : ∃ free alloc, s'.entries.Sound free alloc)
    (hsub : (s'.entries.toList.map (·.1)).Sublist (s.entries.toList.map (·.1)))
    (hkept : ∀ entry ∈ s'.entries.toList, ∃ e, (entry.1, e) ∈ s.entries.toList ∧
      e.Continues entry.2) : Entries s' numbers past where
  sound := hsound
  nodup := by
    have hnumbers := hsub.map fun slot => numbers slot.index
    rw [List.map_map, List.map_map] at hnumbers
    have hnodup := h.nodup
    rw [numbered, List.map_map] at hnodup ⊢
    exact hnodup.sublist hnumbers
  isPending entry hentry := by
    obtain ⟨⟨slot, e'⟩, hmem, rfl⟩ := List.mem_map.1 hentry
    obtain ⟨e, he, hcontinues⟩ := hkept _ hmem
    obtain ⟨⟨made, hmade, hold⟩, hlooks⟩ :=
      h.isPending (numbers slot.index, e) (List.mem_map_of_mem he)
    exact ⟨⟨made, hmade, hold.trans hcontinues⟩, hlooks⟩

theorem sublist (h : Entries s numbers past) (hsound : ∃ free alloc, s'.entries.Sound free alloc)
    (hsub : s'.entries.toList.Sublist s.entries.toList) : Entries s' numbers past :=
  h.left hsound (hsub.map _) fun entry hentry =>
    ⟨entry.2, hsub.subset hentry, rfl, fun _ => rfl⟩

theorem fire {free alloc : List Nat} {wakes : Wakes} {now tick : Tick}
    {pending : List (Nat × TimeoutEntry)} {seen due : List Nat} (h : Entries s numbers past)
    (hpool : s.entries.Sound free alloc) (hseen : seen = (numbered s numbers).map (·.1)) :
    Entries (s.fire wakes now).2.1 numbers (.fired tick pending seen due :: past) := by
  obtain ⟨hsub, hkept⟩ := Schedule.kept_of_fire hpool wakes now
  have hleft := h.left (Schedule.sound_fire h.sound wakes now) hsub hkept
  refine ⟨hleft.sound, hleft.nodup, fun entry hentry => (hleft.isPending entry hentry).tell ?_⟩
  intro tick pending seen due heq
  cases heq
  refine ⟨fun _ => (hleft.isPending entry hentry).lt_length, fun _ => ?_⟩
  obtain ⟨⟨slot, e'⟩, hmem, rfl⟩ := List.mem_map.1 hentry
  obtain ⟨e, he, -⟩ := hkept _ hmem
  rw [hseen, numbered, List.map_map]
  exact List.mem_map.2 ⟨(slot, e), he, rfl⟩

theorem grant (h : Entries s numbers past) (hlaw : Lawful (Law period) past)
    (hsound : ∃ free alloc, s'.entries.Sound free alloc) {slot : Handle} {e : TimeoutEntry}
    (htoList : s'.entries.toList = s.entries.toList ++ [(slot, e)]) (call : Call NotificationId)
    (reply : Reply) :
    Entries s' (Function.update numbers slot.index (tally past).grants.length)
      (.handled call reply (some e) :: past) := by
  have hnumbered := numbered_grant hsound htoList numbers (tally past).grants.length
  have hold : Entries s numbers (.handled call reply (some e) :: past) := h.tell nofun
  refine ⟨hsound, ?_, ?_⟩
  · rw [hnumbered, List.map_append, List.nodup_append]
    refine ⟨h.nodup, List.nodup_singleton _, ?_⟩
    intro number hnumber other hother
    rw [List.mem_singleton.1 hother]
    obtain ⟨entry, hentry, rfl⟩ := List.mem_map.1 hnumber
    exact Nat.ne_of_lt (h.isPending entry hentry).lt_length
  · intro entry hentry
    rw [hnumbered] at hentry
    rcases List.mem_append.1 hentry with hentry | hentry
    · exact hold.isPending entry hentry
    · obtain rfl := List.mem_singleton.1 hentry
      refine ⟨⟨e, ?_, rfl, fun _ => rfl⟩, lawful_cons.2 ⟨nofun, looksAt_of_new hlaw⟩⟩
      change ((tally past).grants ++ [e])[(tally past).grants.length]? = some e
      rw [List.getElem?_append_right (Nat.le_refl _), Nat.sub_self]
      rfl

end Entries

/-! ## Calls -/

/-- A call is as its caller sent it. -/
def Sent (t : Tally) (call : Call NotificationId) : Prop :=
  t.sends[call.caller]? = some (call.badge, call.message)

/-- Where the server stands, and which call it holds then. -/
def Stands (e : Endpoint NotificationId) (history : List Deed) : ServerPhase → Prop
  | .idle | .receiving => e.received.size = (tally history).handled
  | .handling k =>
    k = (tally history).handled ∧ e.received.size = k + 1 ∧ ∃ call, e.call? k = some call
  | .replying k reply =>
    e.received.size = (tally history).handled ∧ (∃ call, e.call? k = some call) ∧
      ∃ call granted, .handled call reply granted ∈ history ∧ call.caller = k
  | .ended => False

/-- Calls are numbered as they are sent, and handled in that order. -/
structure Calls (e : Endpoint NotificationId) (phase : ServerPhase) (history : List Deed) :
    Prop where
  live : e.live = true
  size : e.results.size = (tally history).sends.length
  count : e.received.size + e.queue.length = e.results.size
  queue : ∀ i call, e.queue[i]? = some call →
    call.caller = e.received.size + i ∧ Sent (tally history) call
  held : ∀ k call, e.call? k = some call → call.caller = k ∧ Sent (tally history) call
  stands : Stands e history phase
  results : ∀ caller result, e.result? caller = some result → ∃ call reply granted,
    .handled call reply granted ∈ history ∧ call.caller = caller ∧ result = .ok reply.toMessage

theorem Sent.mono {call : Call NotificationId} (h : Sent (tally past) call) (deed : Deed) :
    Sent (tally (deed :: past)) call :=
  getElem?_of_initial (tally_mono [deed] past).1 h

namespace Calls

variable {call : Call NotificationId} {k : Nat}

theorem results_cons (h : Calls e phase past) (deed : Deed) {caller : Nat}
    {result : CallResult NotificationId} (hresult : e.result? caller = some result) :
    ∃ call reply granted, .handled call reply granted ∈ deed :: past ∧ call.caller = caller ∧
      result = .ok reply.toMessage := by
  obtain ⟨call, reply, granted, hmem, hrest⟩ := h.results caller result hresult
  exact ⟨call, reply, granted, List.mem_cons_of_mem _ hmem, hrest⟩

theorem stands_cons (h : Calls e phase past)
    (hhandled : (tally (deed :: past)).handled = (tally past).handled) :
    Stands e (deed :: past) phase := by
  have hstands := h.stands
  cases phase with
  | ended => exact hstands
  | idle | receiving | handling => simpa only [Stands, hhandled] using hstands
  | replying k reply =>
    obtain ⟨hsize, hcall, call, granted, hmem, hcaller⟩ := hstands
    exact ⟨by rw [hhandled, hsize], hcall, call, granted, List.mem_cons_of_mem _ hmem, hcaller⟩

theorem tell (h : Calls e phase past) (hsends : (tally (deed :: past)).sends = (tally past).sends)
    (hhandled : (tally (deed :: past)).handled = (tally past).handled) :
    Calls e phase (deed :: past) where
  live := h.live
  size := by rw [hsends, h.size]
  count := h.count
  queue i call hcall := ⟨(h.queue i call hcall).1, (h.queue i call hcall).2.mono deed⟩
  held k call hcall := ⟨(h.held k call hcall).1, (h.held k call hcall).2.mono deed⟩
  stands := h.stands_cons hhandled
  results _ _ hresult := h.results_cons deed hresult

theorem send (h : Calls e phase past) (badge : Badge) (m : ClockMessage) :
    Calls (e.send badge m).2 phase (.sent (e.send badge m).1 badge m :: past) := by
  simp only [Endpoint.send, Endpoint.hasReceiver_of_live h.live, if_true]
  have hstands : Stands e (.sent e.results.size badge m :: past) phase := h.stands_cons rfl
  refine
    { live := h.live, size := ?_, count := ?_, queue := fun i call hcall => ?_
      held := fun k call hcall => ?_, stands := ?_, results := fun caller result hresult => ?_ }
  · change (e.results.push none).size = ((tally past).sends ++ [(badge, m)]).length
    rw [Array.size_push, h.size, List.length_append]
    rfl
  · rw [Array.size_push, List.length_append, ← h.count]
    rfl
  · rcases Nat.lt_or_ge i e.queue.length with hlt | hge
    · rw [List.getElem?_append_left hlt] at hcall
      exact ⟨(h.queue i call hcall).1, (h.queue i call hcall).2.mono _⟩
    · have hi : i = e.queue.length := by
        have hlast := (List.getElem?_eq_some_iff.1 hcall).1
        rw [List.length_append, List.length_singleton] at hlast
        omega
      rw [hi, List.getElem?_append_right (Nat.le_refl _), Nat.sub_self] at hcall
      obtain rfl := Option.some.inj hcall
      refine ⟨by rw [hi, h.count], ?_⟩
      change ((tally past).sends ++ [(badge, m)])[e.results.size]? = some (badge, m)
      rw [h.size, List.getElem?_append_right (Nat.le_refl _), Nat.sub_self]
      rfl
  · exact ⟨(h.held k call hcall).1, (h.held k call hcall).2.mono _⟩
  · cases phase <;> exact hstands
  · exact h.results_cons _ (by simpa using hresult)

theorem receive (h : Calls e .receiving past) {next : Except PlatformError Nat}
    (hreceive : e.receive = some (next, e')) :
    ∃ k, next = .ok k ∧ Calls e' (.handling k) past := by
  cases hqueue : e.queue with
  | nil =>
    rw [Endpoint.receive_nil hqueue, if_pos (Endpoint.hasSender_of_live h.live)] at hreceive
    cases hreceive
  | cons call queue =>
    rw [Endpoint.receive_cons hqueue] at hreceive
    obtain ⟨rfl, rfl⟩ := Prod.mk.inj (Option.some.inj hreceive)
    have hhandled : e.received.size = (tally past).handled := h.stands
    have hcount := h.count
    have hfirst := h.queue 0 call (by rw [hqueue]; rfl)
    rw [hqueue, List.length_cons] at hcount
    refine ⟨_, rfl,
      { live := h.live, size := h.size, count := ?_, queue := fun i other hother => ?_
        held := fun k other hother => ?_, stands := ⟨hhandled, Array.size_push .., call, ?_⟩
        results := h.results }⟩
    · rw [Array.size_push, Nat.add_right_comm]
      exact hcount
    · obtain ⟨hcaller, hsent⟩ := h.queue (i + 1) other (by rw [hqueue]; exact hother)
      refine ⟨?_, hsent⟩
      rw [Array.size_push, hcaller]
      omega
    · rw [Endpoint.call?_push] at hother
      split at hother
      · obtain rfl := Option.some.inj hother
        rename_i hk
        exact ⟨hk ▸ hfirst.1, hfirst.2⟩
      · exact h.held k other hother
    · simp

theorem handle (h : Calls e (.handling k) past) (hcall : e.call? k = some call) (reply : Reply)
    (granted : Option TimeoutEntry) :
    Calls e (.replying k reply) (.handled call reply granted :: past) where
  live := h.live
  size := h.size
  count := h.count
  queue i call hcall := ⟨(h.queue i call hcall).1, (h.queue i call hcall).2.mono _⟩
  held k call hcall := ⟨(h.held k call hcall).1, (h.held k call hcall).2.mono _⟩
  stands := by
    obtain ⟨rfl, hsize, hsome⟩ := h.stands
    exact ⟨hsize, hsome, call, granted, List.mem_cons_self, (h.held _ call hcall).1⟩
  results _ _ hresult := h.results_cons _ hresult

theorem finish {reply : Reply} (h : Calls e (.replying k reply) past) :
    Calls (e.reply k reply.toMessage) .receiving past := by
  obtain ⟨hhandled, ⟨call, hcall⟩, answered, granted, hmem, hanswered⟩ := h.stands
  obtain ⟨hcaller, -⟩ := h.held k call hcall
  have hlt := Endpoint.lt_size_of_call? hcall
  have hresults : k < e.results.size := by
    have hcount := h.count
    omega
  rw [Endpoint.reply, Endpoint.finish_of_call? hcall, hcaller]
  refine
    { live := h.live, size := ?_, count := ?_, queue := fun i other hother => ?_
      held := fun j other hother => ?_, stands := ?_, results := fun caller result hresult => ?_ }
  · rw [Array.size_setIfInBounds, h.size]
  · rw [Array.size_setIfInBounds, Array.size_setIfInBounds, h.count]
  · rw [Array.size_setIfInBounds]
    exact h.queue i other hother
  · have hheld := (Endpoint.call?_setIfInBounds e hlt none).symm.trans hother
    split at hheld
    · cases hheld
    · exact h.held j other hheld
  · exact (Array.size_setIfInBounds ..).trans hhandled
  · have hsettled := (Endpoint.result?_settle (e := e) hresults _ caller).symm.trans hresult
    split at hsettled
    · rename_i heq
      exact ⟨answered, reply, granted, hmem, hanswered.trans heq.symm,
        (Option.some.inj hsettled).symm⟩
    · exact h.results caller result hsettled

end Calls

/-! ## Events -/

structure Kept (period : Tick) (c : RunningClock) : Prop where
  paced : Paced period c.clock (tally c.history)
  entries : Entries c.clock.state.schedule c.numbers c.history
  calls : Calls c.clock.endpoint c.clock.serverPhase c.history
  turns : Sequential c.history →
    Turns c.raisers c.clock.timer.device.deviceLive (tally c.history)
  idle : c.clock.timerPhase = .idle → c.clock.serverPhase = .idle
  lawful : Lawful (Law period) c.history

theorem kept_start {config : Config} {timer : ClockTimer}
    (hclock : SysClock.ofConfig config timer = .ok clock) (htimer : timer.device = {})
    (wakes : Wakes) : Kept config.sysclockPeriodMs { clock, wakes } := by
  obtain ⟨armed, schedule, harm, hschedule, rfl⟩ := SysClock.ofConfig_eq_ok hclock
  obtain ⟨hlock, hempty⟩ := Schedule.lockstep_of_ofCapacity hschedule
  have hnone : schedule.entries.toList = [] := List.map_eq_nil_iff.1 hempty
  have hdevice : armed.device.interrupts = 0 ∧ armed.device.acknowledgements = 0 := by
    unfold ClockTimer.arm at harm
    split at harm
    · cases harm
    · rw [htimer, ManualTimer.setPeriodic] at harm
      split at harm
      · cases harm
      · cases harm
        exact ⟨rfl, rfl⟩
  refine
    { paced := ⟨rfl, ?_, fun _ => rfl, rfl, Nat.le_refl _, ?_, ?_⟩
      entries := ⟨hlock.pool, ?_, ?_⟩
      calls := ⟨rfl, rfl, rfl, nofun, nofun, rfl, nofun⟩
      turns := fun _ => ⟨fun _ => ⟨fun _ => rfl, fun _ => ⟨rfl, rfl⟩⟩, nofun⟩
      idle := fun _ => rfl
      lawful := lawful_nil }
  · rfl
  · change 0 + 0 + armed.device.interrupts = 0
    rw [hdevice.1]
  · change 0 + armed.device.acknowledgements ≤ 0
    omega
  · rw [numbered, hnone]
    exact List.nodup_nil
  · rw [numbered, hnone]
    nofun

theorem sequential_of_cons (h : Sequential (deed :: past)) : Sequential past := (lawful_cons.1 h).2

namespace Kept

theorem collect (h : Kept period c) {caller : Nat} {result : CallResult NotificationId}
    (hresult : c.clock.endpoint.result? caller = some result) :
    Kept period { c with history := .returned caller result :: c.history } where
  paced := h.paced.of_same rfl rfl rfl rfl rfl rfl rfl rfl rfl rfl
  entries := h.entries.tell nofun
  calls := h.calls.tell rfl rfl
  turns hsequential := (h.turns (sequential_of_cons hsequential)).of_same id rfl rfl rfl rfl
  idle := h.idle
  lawful := lawful_cons.2 ⟨h.calls.results caller result hresult, h.lawful⟩

theorem send (h : Kept period c) (badge : Badge) (m : ClockMessage) :
    Kept period (c.handle (.send badge m)) := by
  have hcaller : (c.clock.endpoint.send badge m).1 = (tally c.history).sends.length := h.calls.size
  exact
    { paced := h.paced.of_same rfl rfl rfl rfl rfl rfl rfl rfl rfl rfl
      entries := h.entries.tell nofun
      calls := h.calls.send badge m
      turns := fun hsequential =>
        (h.turns (sequential_of_cons hsequential)).of_same id rfl rfl rfl rfl
      idle := h.idle
      lawful := lawful_cons.2 ⟨hcaller, h.lawful⟩ }

theorem start (h : Kept period c) (hstart : c.clock.start = .ok clock) :
    Kept period { c with clock } := by
  obtain ⟨hphase, rfl⟩ := SysClock.start_eq_ok hstart
  obtain ⟨h₁, h₂, h₃, h₄, h₅, h₆, h₇⟩ := h.paced
  rw [hphase] at h₃ h₄ h₅ h₆
  have hcalls := h.calls
  rw [h.idle hphase] at hcalls
  exact
    { paced := ⟨h₁, h₂, fun _ => h₃ nofun, h₄, h₅, h₆, h₇⟩
      entries := h.entries
      calls := ⟨hcalls.live, hcalls.size, hcalls.count, hcalls.queue, hcalls.held, hcalls.stands,
        hcalls.results⟩
      turns := h.turns
      idle := nofun
      lawful := h.lawful }

/-- A timer step tells at most one thing. -/
theorem lawful_of_fire (h : Kept period c) (hphase : c.clock.timerPhase = .ticked) :
    Law period c.history (.fired c.clock.now c.pending
      ((c.clock.state.schedule.seenSlots c.wakes c.clock.now).map fun slot => c.numbers slot.index)
      ((c.clock.state.schedule.firedSlots c.wakes c.clock.now).map fun slot =>
        c.numbers slot.index)) := by
  obtain ⟨free, alloc, hpool⟩ := h.entries.sound
  have hseen : ((c.clock.state.schedule.seenSlots c.wakes c.clock.now).map fun slot =>
      c.numbers slot.index) = c.pending.map (·.1) := by
    rw [Schedule.seenSlots_eq hpool, pending, numbered, List.map_map, List.map_map]
    rfl
  have hdue : ((c.clock.state.schedule.firedSlots c.wakes c.clock.now).map fun slot =>
      c.numbers slot.index) = (c.pending.filter (·.2.isDue c.clock.now)).map (·.1) := by
    rw [Schedule.firedSlots_eq hpool, pending, numbered, List.filter_map, List.map_map, List.map_map]
    rfl
  have hstored := h.paced.stored
  rw [if_pos hphase] at hstored
  exact ⟨h.paced.tick, hstored, hseen, hseen ▸ h.entries.nodup, hdue, h.entries.isPending⟩

theorem timer {wakes' : Wakes} (h : Kept period c)
    (hstep : c.clock.TimerSteps c.wakes clock' wakes') :
    Kept period { c with
      clock := clock', wakes := wakes', history := c.timerNews clock' ++ c.history } := by
  have hpaced := h.paced.timer hstep
  cases hstep with
  | interrupt hphase hwait =>
    obtain ⟨-, -, hlive⟩ := ClockTimer.device_of_waitInterrupt hwait
    simp only [timerNews, hphase, List.nil_append] at hpaced ⊢
    exact
      { paced := hpaced, entries := h.entries, calls := h.calls
        turns := fun hsequential => (h.turns hsequential).of_same (fun hnew => hlive ▸ hnew) rfl rfl
          rfl rfl
        idle := nofun, lawful := h.lawful }
  | stop hphase =>
    simp only [timerNews, hphase, List.nil_append] at hpaced ⊢
    exact
      { paced := hpaced, entries := h.entries, calls := h.calls
        turns := fun hsequential => (h.turns hsequential).of_same nofun rfl rfl rfl rfl
        idle := nofun, lawful := h.lawful }
  | store hphase =>
    simp only [timerNews, hphase] at hpaced ⊢
    exact
      { paced := hpaced, entries := h.entries.tell nofun, calls := h.calls.tell rfl rfl
        turns := fun hsequential =>
          (h.turns (sequential_of_cons hsequential)).of_same id rfl rfl rfl rfl
        idle := nofun, lawful := lawful_cons.2 ⟨trivial, h.lawful⟩ }
  | fire hphase =>
    have hlaw := h.lawful_of_fire hphase
    obtain ⟨free, alloc, hpool⟩ := h.entries.sound
    simp only [timerNews, hphase] at hpaced ⊢
    refine
      { paced := hpaced, entries := ?_, calls := h.calls.tell rfl rfl
        turns := fun hsequential =>
          (h.turns (sequential_of_cons hsequential)).of_same id rfl rfl rfl rfl
        idle := nofun, lawful := lawful_cons.2 ⟨hlaw, h.lawful⟩ }
    exact h.entries.fire hpool hlaw.2.2.1
  | acknowledge hphase hack =>
    have hdevice := ClockTimer.device_of_acknowledge hack
    obtain ⟨-, -, hlive⟩ := ManualTimer.acknowledge_spec c.clock.timer.device
    rw [← hdevice] at hlive
    simp only [timerNews, hphase] at hpaced ⊢
    exact
      { paced := hpaced, entries := h.entries.tell nofun, calls := h.calls.tell rfl rfl
        turns := fun hsequential => (h.turns (sequential_of_cons hsequential)).of_same
          (fun hnew => hlive ▸ hnew) rfl rfl rfl rfl
        idle := nofun, lawful := lawful_cons.2 ⟨trivial, h.lawful⟩ }
  | fail hphase =>
    simp only [timerNews, hphase, List.nil_append] at hpaced ⊢
    exact
      { paced := hpaced, entries := h.entries, calls := h.calls
        turns := fun hsequential => (h.turns hsequential).of_same nofun rfl rfl rfl rfl
        idle := nofun, lawful := h.lawful }

theorem granted_cases {state : ClockState} {badge : Badge} {m : ClockMessage}
    {next : Reply × ClockState} (h : state.Served badge m next)
    (htick : state.tick = tickAfter period t.stored)
    (hlast : SysClock.needsSchedule m = true → state.tick = t.tick) :
    (grantedBy next.2.schedule next.1 = none ∧
      next.2.schedule.entries.toList.Sublist state.schedule.entries.toList ∧
      Answer period t badge m next.1 none) ∨
    ∃ slot e, grantedBy next.2.schedule next.1 = some (slot, e) ∧
      next.2.schedule.entries.toList = state.schedule.entries.toList ++ [(slot, e)] ∧
      Answer period t badge m next.1 (some e) := by
  have hcases := h.cases
  unfold SysClock.needsSchedule Request.ofMessage at hlast
  unfold Answer
  cases hm : Request.decode m with
  | error _ =>
    rw [hm] at hcases
    rw [hcases]
    exact Or.inl ⟨rfl, List.Sublist.refl _, rfl, rfl⟩
  | ok request =>
    rw [hm] at hcases hlast
    cases request with
    | getTime =>
      rw [hcases, htick]
      exact Or.inl ⟨rfl, List.Sublist.refl _, rfl, rfl⟩
    | cancelTimeout id =>
      obtain ⟨hreply, hsub⟩ := hcases
      refine Or.inl ⟨?_, hsub, hreply, rfl⟩
      rcases hreply with hreply | hreply <;> rw [hreply] <;> rfl
    | setTimeout periodic period wake =>
      rw [← hlast rfl]
      rcases hcases with ⟨hreply, hsame⟩ | ⟨id, slot, hreply, htoList⟩
      · rw [hreply, hsame]
        exact Or.inl ⟨rfl, List.Sublist.refl _, Or.inl ⟨rfl, rfl⟩⟩
      · refine Or.inr ⟨slot, _, ?_, htoList, Or.inr ⟨id, hreply, rfl⟩⟩
        rw [hreply, grantedBy, htoList, List.getLast?_concat]

theorem server (h : Kept period c) (hstep : c.clock.ServerSteps clock') :
    Kept period (c.serve clock') := by
  cases hstep with
  | receive hphase hreceive =>
    obtain ⟨k, hk, hcalls⟩ := (hphase ▸ h.calls).receive hreceive
    obtain rfl := Except.ok.inj hk
    simp only [RunningClock.serve, hphase]
    exact
      { paced := h.paced.of_same rfl rfl rfl rfl rfl rfl rfl rfl rfl rfl, entries := h.entries
        calls := hcalls, turns := h.turns
        idle := fun hidle => absurd ((h.idle hidle).symm.trans hphase) (by decide)
        lawful := h.lawful }
  -- the endpoint is never dropped, so that the server does not run out of calls
  | close hphase hreceive =>
    obtain ⟨k, hk, -⟩ := (hphase ▸ h.calls).receive hreceive
    cases hk
  | @skip k hphase hcall =>
    have hstands := h.calls.stands
    rw [hphase] at hstands
    obtain ⟨-, -, call, hsome⟩ := hstands
    rw [hcall] at hsome
    cases hsome
  | @handle k call hphase hcall hfree =>
    obtain ⟨free, alloc, hpool⟩ := h.entries.sound
    have hserved := ClockState.served hpool call.badge call.message
    have hcases := granted_cases hserved h.paced.tick fun hneeds => h.paced.last (hfree hneeds)
    have hcalls := (hphase ▸ h.calls).handle hcall
    have hstands := h.calls.stands
    rw [hphase] at hstands
    obtain ⟨hcaller, hsent⟩ := h.calls.held k call hcall
    simp only [RunningClock.serve, hphase, hcall]
    generalize c.clock.state.serve call.badge call.message = next at hserved hcases ⊢
    refine
      { paced := h.paced.of_same rfl hserved.tick_eq rfl rfl rfl rfl rfl rfl rfl rfl
        entries := ?_, calls := hcalls _ _
        turns := fun hsequential =>
          (h.turns (sequential_of_cons hsequential)).of_same id rfl rfl rfl rfl
        idle := fun hidle => absurd ((h.idle hidle).symm.trans hphase) (by simp)
        lawful := lawful_cons.2 ⟨⟨hcaller.trans hstands.1, hsent, ?_⟩, h.lawful⟩ }
    · rcases hcases with ⟨hnone, hsub, -⟩ | ⟨slot, e, hsome, htoList, -⟩
      · simp only [hnone]
        exact (h.entries.sublist hserved.sound hsub).tell nofun
      · simp only [hsome]
        exact h.entries.grant h.lawful hserved.sound htoList call next.1
    · rcases hcases with ⟨hnone, -, hanswer⟩ | ⟨slot, e, hsome, -, hanswer⟩
      · simp only [hnone]
        exact hanswer
      · simp only [hsome]
        exact hanswer
  | @reply k reply hphase =>
    have hcalls := (hphase ▸ h.calls).finish
    simp only [RunningClock.serve, hphase]
    exact
      { paced := h.paced.of_same rfl rfl rfl rfl rfl rfl rfl rfl rfl rfl, entries := h.entries
        calls := hcalls, turns := h.turns
        idle := fun hidle => absurd ((h.idle hidle).symm.trans hphase) (by simp)
        lawful := h.lawful }

theorem fire (h : Kept period c) (raiser : Nat) (hnone : c.raisers raiser = none) :
    Kept period (c.handle (.fire raiser)) := by
  simp only [RunningClock.handle, hnone]
  exact
    { paced := h.paced.of_same rfl rfl rfl rfl rfl rfl rfl rfl rfl rfl
      entries := h.entries.tell nofun, calls := h.calls.tell rfl rfl
      turns := fun hsequential =>
        (h.turns (sequential_of_cons hsequential)).begin
          ((lawful_cons.1 hsequential).1 raiser rfl) raiser
      idle := h.idle, lawful := lawful_cons.2 ⟨trivial, h.lawful⟩ }

/-- Once the only raiser has heard of its interrupt, that is worked off. -/
theorem worked_off (h : Kept period c) {raiser : Nat} (hp : c.raisers raiser = some (.raise 0))
    (hsequential : Sequential c.history) :
    (tally c.history).stored = (tally c.history).ended + 1 ∧
      (tally c.history).fired = (tally c.history).ended + 1 ∧
      (tally c.history).acknowledged = (tally c.history).ended + 1 := by
  obtain ⟨-, -, hraised, hheard⟩ := (h.turns hsequential).busy raiser _ hp
  obtain ⟨-, -, -, hstored, hacknowledged, hsum, hle⟩ := h.paced
  omega

theorem raise (h : Kept period c) {raiser : Nat} {p : ManualTimer.FirePoint} {device : ManualTimer}
    {next : Next ManualTimer.FirePoint (Except PlatformError Unit)}
    (hp : c.raisers raiser = some p)
    (hstep : ManualTimer.FireSteps c.clock.timer.device p device next) :
    Kept period { c with
      clock := withDevice c.clock device
      raisers := Function.update c.raisers raiser (place next)
      history := raiserNews raiser p next :: c.history } := by
  have hpaced := h.paced.raise raiser hstep
  have hturns : Sequential (raiserNews raiser p next :: c.history) → _ := fun hsequential =>
    (h.turns (sequential_of_cons hsequential)).step hp hstep
  refine
    { paced := hpaced, entries := h.entries.tell ?_, calls := h.calls.tell ?_ ?_, turns := hturns
      idle := h.idle, lawful := lawful_cons.2 ⟨?_, h.lawful⟩ }
  · cases hstep <;> nofun
  · cases hstep <;> rfl
  · cases hstep <;> rfl
  · cases hstep with
    | finish => exact fun hsequential => h.worked_off hp hsequential
    | raise | dead | hear | abandon => trivial

theorem handle (h : Kept period c) (event : Event) : Kept period (c.handle event) := by
  cases event with
  | start =>
    simp only [RunningClock.handle]
    split
    · exact h.start ‹_›
    · exact h
  | send badge m => exact h.send badge m
  | collect caller =>
    simp only [RunningClock.handle]
    split
    · exact h.collect ‹_›
    · exact h
  | timer =>
    simp only [RunningClock.handle]
    split
    · exact h.timer (SysClock.timerSteps_of_step ‹_›)
    · exact h
  | server =>
    simp only [RunningClock.handle]
    split
    · exact h.server (SysClock.serverSteps_of_step ‹_›)
    · exact h
  | fire raiser =>
    cases hraiser : c.raisers raiser with
    | none => exact h.fire raiser hraiser
    | some p =>
      simp only [RunningClock.handle, hraiser]
      exact h
  | raise raiser =>
    simp only [RunningClock.handle]
    split
    · split
      · exact h.raise ‹_› (ManualTimer.fireSteps_of_step ‹_›)
      · exact h
    · exact h
  | dropHandle =>
    obtain ⟨h₁, h₂, h₃, h₄, h₅, h₆, h₇⟩ := h.paced
    exact
      { paced := ⟨h₁, h₂, h₃, h₄, h₅, h₆, h₇⟩, entries := h.entries, calls := h.calls
        turns := h.turns, idle := h.idle, lawful := h.lawful }
  | leave wakes => exact ⟨h.paced, h.entries, h.calls, h.turns, h.idle, h.lawful⟩

theorem run (h : Kept period c) (events : List Event) : Kept period (c.run events) := by
  induction events generalizing c with
  | nil => exact h
  | cons event events ih => exact ih (h.handle event)

end Kept

/-! ## Consistency -/

/-- What holds of a clock with a period at every moment. -/
structure Consistent (period : Tick) (c : RunningClock) : Prop where
  toNat_now : c.clock.now.toNat = period.toNat * (tally c.history).stored % 4294967296
  lawful : Lawful (Law period) c.history
  nodup : (c.pending.map (·.1)).Nodup
  isPending : ∀ entry ∈ c.pending, IsPending entry c.history
  /-- A client that asks for the time reads the tick as it was stored when its call was handled. -/
  time_read : ∀ caller badge m result, (tally c.history).sends[caller]? = some (badge, m) →
    Request.decode m = .ok .getTime → .returned caller result ∈ c.history →
    ∃ count, countAt caller c.history = some count ∧
      ClockClient.timeOf result = .ok (tickAfter period count)
  /-- The time does not go back between calls. -/
  time_mono : ∀ first second count other, ReturnedBefore first second c.history →
    countAt first c.history = some count → countAt second c.history = some other → count ≤ other

theorem Kept.consistent (h : Kept period c) : c.Consistent period where
  toNat_now := by
    rw [SysClock.now, h.paced.tick, toNat_tickAfter]
  lawful := h.lawful
  nodup := h.entries.nodup
  isPending := h.entries.isPending
  time_read _ _ _ _ hsent hm hreturned := exists_countAt_of_returned h.lawful hreturned hsent hm
  time_mono _ _ _ _ hbefore hfirst hsecond := countAt_le_countAt h.lawful hbefore hfirst hsecond

/-- Whatever happens to a clock that was configured with a new timer, it is consistent. -/
theorem always_consistent {config : Config} {timer : ClockTimer}
    (hclock : SysClock.ofConfig config timer = .ok clock) (htimer : timer.device = {})
    (wakes : Wakes) (events : List Event) :
    (({ clock, wakes } : RunningClock).run events).Consistent config.sysclockPeriodMs :=
  ((kept_start hclock htimer wakes).run events).consistent

/-- A timeout is granted before the first interrupt, and fires at it. -/
theorem always_consistent_first_interrupt :
    ∃ clock, SysClock.ofConfig { sysclockMaxEntries := 1 } {} = .ok clock ∧
      ({} : ClockTimer).device = {} ∧
      let c := ({ clock, wakes := .ofCount 1 } : RunningClock).run
        [.start, .send 7 (Request.toMessage (.setTimeout false 5 0)), .server, .server, .server,
          .collect 0, .fire 0, .raise 0, .timer, .timer, .timer, .timer, .raise 0, .raise 0]
      c.Consistent 10 ∧ c.clock.now = 10 ∧ (tally c.history).ended = 1 ∧
        c.wakes.isPending 0 = true :=
  ⟨_, rfl, rfl,
    always_consistent
      (show SysClock.ofConfig { sysclockMaxEntries := 1 } {} = .ok _ from rfl) rfl _ _,
    rfl, rfl, rfl⟩

end RunningClock

end Osal
