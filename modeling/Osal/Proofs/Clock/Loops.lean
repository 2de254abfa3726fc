import Osal.Proofs.Clock.Codec
import Osal.Proofs.Clock.Punctual

/-!
# The two loops of the clock

What a step of the timer loop and a step of the server loop can do, one rule for each way to go on, and
what they do to the entries of the schedule.
-/

namespace Osal

namespace SysClock

/-- The steps of the timer loop. -/
inductive TimerSteps (c : SysClock) (wakes : Wakes) : SysClock → Wakes → Prop where
  | interrupt {timer : ClockTimer} (hphase : c.timerPhase = .waiting)
    (hwait : c.timer.waitInterrupt = some (.ok (), timer)) :
    TimerSteps c wakes { c with timer, timerPhase := .interrupted } wakes
  | stop {timer : ClockTimer} {e : PlatformError} (hphase : c.timerPhase = .waiting)
    (hwait : c.timer.waitInterrupt = some (.error e, timer)) :
    TimerSteps c wakes { c with timer := timer.stop, timerPhase := .ended } wakes
  | store (hphase : c.timerPhase = .interrupted) :
    TimerSteps c wakes { c with state := c.state.advance c.period, timerPhase := .ticked } wakes
  | fire (hphase : c.timerPhase = .ticked) :
    TimerSteps c wakes { c with state := (c.state.fireDue wakes).1, timerPhase := .fired }
      (c.state.fireDue wakes).2
  | acknowledge {timer : ClockTimer} (hphase : c.timerPhase = .fired)
    (hack : c.timer.acknowledge = .ok timer) :
    TimerSteps c wakes { c with timer, timerPhase := .waiting } wakes
  | fail {e : PlatformError} (hphase : c.timerPhase = .fired)
    (hack : c.timer.acknowledge = .error e) :
    TimerSteps c wakes { c with timer := c.timer.stop, timerPhase := .ended } wakes

/-- The steps of the server loop. -/
inductive ServerSteps (c : SysClock) : SysClock → Prop where
  | receive {k : Nat} {endpoint : Endpoint NotificationId} (hphase : c.serverPhase = .receiving)
    (hreceive : c.endpoint.receive = some (.ok k, endpoint)) :
    ServerSteps c { c with endpoint, serverPhase := .handling k }
  | close {e : PlatformError} {endpoint : Endpoint NotificationId}
    (hphase : c.serverPhase = .receiving)
    (hreceive : c.endpoint.receive = some (.error e, endpoint)) :
    ServerSteps c { c with endpoint := endpoint.dropServer, serverPhase := .ended }
  | skip {k : Nat} (hphase : c.serverPhase = .handling k) (hcall : c.endpoint.call? k = none) :
    ServerSteps c { c with serverPhase := .receiving }
  | handle {k : Nat} {call : Call NotificationId} (hphase : c.serverPhase = .handling k)
    (hcall : c.endpoint.call? k = some call)
    (hfree : needsSchedule call.message = true → c.timerPhase ≠ .ticked) :
    ServerSteps c { c with
      state := (c.state.serve call.badge call.message).2
      serverPhase := .replying k (c.state.serve call.badge call.message).1 }
  | reply {k : Nat} {reply : Reply} (hphase : c.serverPhase = .replying k reply) :
    ServerSteps c { c with
      endpoint := c.endpoint.reply k reply.toMessage, serverPhase := .receiving }

variable {c c' : SysClock} {wakes wakes' : Wakes}

theorem ofConfig_eq_ok {config : Config} {timer : ClockTimer}
    (h : ofConfig config timer = .ok c) : ∃ armed schedule,
      timer.arm config.sysclockPeriodMs = .ok armed ∧
      Schedule.ofCapacity config.sysclockMaxEntries = .ok schedule ∧
      c = { state := { schedule }, period := config.sysclockPeriodMs, timer := armed } := by
  unfold ofConfig at h
  split at h
  · cases h
  split at h
  · cases h
  split at h
  · cases h
  · cases h
    exact ⟨_, _, ‹_›, ‹_›, rfl⟩

theorem start_eq_ok (h : c.start = .ok c') : c.timerPhase = .idle ∧
    c' = { c with
      timerPhase := .waiting, serverPhase := .receiving
      endpoint := { c.endpoint with servers := c.endpoint.servers + 1 } } := by
  unfold start at h
  split at h
  · cases h
  · rename_i hrunning
    refine ⟨by simpa [isRunning] using hrunning, ?_⟩
    cases h
    rfl

theorem timerSteps_of_step (h : c.timerStep wakes = some (c', wakes')) :
    c.TimerSteps wakes c' wakes' := by
  unfold timerStep at h
  split at h
  · cases h
  · cases h
  · rename_i hphase
    obtain ⟨⟨answer, timer⟩, hwait, heq⟩ := Option.map_eq_some_iff.1 h
    cases answer with
    | ok =>
      obtain ⟨rfl, rfl⟩ := Prod.mk.inj heq
      exact .interrupt hphase hwait
    | error e =>
      obtain ⟨rfl, rfl⟩ := Prod.mk.inj heq
      exact .stop hphase hwait
  · rename_i hphase
    obtain ⟨rfl, rfl⟩ := Prod.mk.inj (Option.some.inj h)
    exact .store hphase
  · rename_i hphase
    obtain ⟨rfl, rfl⟩ := Prod.mk.inj (Option.some.inj h)
    exact .fire hphase
  · rename_i hphase
    split at h
    · obtain ⟨rfl, rfl⟩ := Prod.mk.inj (Option.some.inj h)
      exact .acknowledge hphase ‹_›
    · obtain ⟨rfl, rfl⟩ := Prod.mk.inj (Option.some.inj h)
      exact .fail hphase ‹_›

theorem serverSteps_of_step (h : c.serverStep = some c') : c.ServerSteps c' := by
  unfold serverStep at h
  split at h
  · cases h
  · cases h
  · rename_i hphase
    obtain ⟨⟨answer, endpoint⟩, hreceive, rfl⟩ := Option.map_eq_some_iff.1 h
    cases answer with
    | ok k => exact .receive hphase hreceive
    | error e => exact .close hphase hreceive
  · rename_i hphase
    split at h
    · obtain rfl := Option.some.inj h
      exact .skip hphase ‹_›
    · rename_i call hcall
      split at h
      · cases h
      · rename_i hheld
        obtain rfl := Option.some.inj h
        refine .handle hphase hcall fun hneeds hticked => hheld ?_
        rw [hneeds, scheduleHeld, hticked]
        rfl
  · rename_i hphase
    obtain rfl := Option.some.inj h
    exact .reply hphase

end SysClock

namespace ClockTimer

variable {t t' : ClockTimer}

theorem device_of_waitInterrupt (h : t.waitInterrupt = some (.ok (), t')) :
    t'.device.interrupts + 1 = t.device.interrupts ∧
      t'.device.acknowledgements = t.device.acknowledgements ∧
      t'.device.deviceLive = t.device.deviceLive := by
  unfold waitInterrupt at h
  split at h
  · cases h
  · obtain ⟨⟨answer, device⟩, hwait, heq⟩ := Option.map_eq_some_iff.1 h
    obtain ⟨rfl, rfl⟩ := Prod.mk.inj heq
    unfold ManualTimer.waitInterrupt at hwait
    split at hwait
    · cases hwait
    · split at hwait
      · rename_i hpos
        obtain ⟨-, rfl⟩ := Prod.mk.inj (Option.some.inj hwait)
        exact ⟨Nat.sub_add_cancel hpos, rfl, rfl⟩
      · split at hwait <;> cases hwait

theorem device_of_stopped {e : PlatformError} (h : t.waitInterrupt = some (.error e, t')) :
    t'.device = t.device := by
  unfold waitInterrupt at h
  split at h
  · cases h
    rfl
  · obtain ⟨⟨answer, device⟩, hwait, heq⟩ := Option.map_eq_some_iff.1 h
    obtain ⟨rfl, rfl⟩ := Prod.mk.inj heq
    unfold ManualTimer.waitInterrupt at hwait
    split at hwait
    · cases hwait
      rfl
    · split at hwait
      · cases hwait
      · split at hwait
        · cases hwait
        · cases hwait
          rfl

theorem device_of_acknowledge (h : t.acknowledge = .ok t') :
    t'.device = t.device.acknowledge := by
  unfold acknowledge at h
  split at h
  · cases h
  · cases h
    rfl

end ClockTimer

namespace ManualTimer

theorem acknowledge_spec (t : ManualTimer) :
    t.acknowledge.interrupts = t.interrupts ∧
      t.acknowledge.acknowledgements ≤ t.acknowledgements + 1 ∧
      t.acknowledge.deviceLive = t.deviceLive := by
  unfold acknowledge
  split
  · exact ⟨rfl, Nat.le_refl _, rfl⟩
  · exact ⟨rfl, Nat.le_succ _, rfl⟩

/-- The steps of a thread that raises interrupts. -/
inductive FireSteps (t : ManualTimer) :
    FirePoint → ManualTimer → Next FirePoint (Except PlatformError Unit) → Prop where
  | finish : FireSteps t (.raise 0) t (.done (.ok ()))
  | raise (left : Nat) (hlive : t.deviceLive = true) :
    FireSteps t (.raise (left + 1)) { t with interrupts := t.interrupts + 1 } (.goto (.await left))
  | dead (left : Nat) (hdead : t.deviceLive = false) :
    FireSteps t (.raise (left + 1)) t (.done (.error .timerStopped))
  | hear (left : Nat) (hpos : 0 < t.acknowledgements) :
    FireSteps t (.await left) { t with acknowledgements := t.acknowledgements - 1 }
      (.goto (.raise left))
  | abandon (left : Nat) (hdead : t.deviceLive = false) :
    FireSteps t (.await left) t (.done (.error .timerStopped))

theorem fireSteps_of_step {t t' : ManualTimer} {p : FirePoint}
    {next : Next FirePoint (Except PlatformError Unit)} (h : fireStep t p = some (t', next)) :
    FireSteps t p t' next := by
  unfold fireStep at h
  split at h
  · obtain ⟨rfl, rfl⟩ := Prod.mk.inj (Option.some.inj h)
    exact .finish
  · split at h
    · obtain ⟨rfl, rfl⟩ := Prod.mk.inj (Option.some.inj h)
      exact .raise _ ‹_›
    · obtain ⟨rfl, rfl⟩ := Prod.mk.inj (Option.some.inj h)
      exact .dead _ (Bool.eq_false_iff.2 ‹_›)
  · split at h
    · obtain ⟨rfl, rfl⟩ := Prod.mk.inj (Option.some.inj h)
      exact .hear _ ‹_›
    · split at h
      · cases h
      · obtain ⟨rfl, rfl⟩ := Prod.mk.inj (Option.some.inj h)
        exact .abandon _ (Bool.eq_false_iff.2 ‹_›)

end ManualTimer

/-! ## Entries -/

namespace TimeoutEntry

/-- An entry is as another one was made: a one-shot is the same, and a periodic one may have another
deadline. -/
def Continues (made e : TimeoutEntry) : Prop :=
  e = { made with nextFire := e.nextFire } ∧ (made.periodic = false → e = made)

theorem Continues.trans {made e e' : TimeoutEntry} (h : made.Continues e) (h' : e.Continues e') :
    made.Continues e' := by
  obtain ⟨he, honce⟩ := h
  obtain ⟨he', honce'⟩ := h'
  refine ⟨by rw [he', he], fun hmade => ?_⟩
  rw [honce hmade] at honce'
  exact honce' hmade

end TimeoutEntry

namespace Schedule

/-- A visitor that also notes the slots that it visits. -/
def noteVisits (visit : Pool.Visitor Firing TimeoutEntry) :
    Pool.Visitor (Firing × List Handle) TimeoutEntry :=
  fun (f, slots) h e =>
    let (f', e', verdict) := visit f h e
    ((f', slots ++ [h]), e', verdict)

def seenSlots (s : Schedule) (wakes : Wakes) (now : Tick) : List Handle :=
  (s.entries.sweep ({ fired := 0, caps := s.caps, wakes }, []) (noteVisits (fireEntry now))).1.2

variable {s : Schedule} {free alloc : List Nat} {now : Tick}

theorem visitList_noteVisits (now : Tick) (rest : List (Handle × TimeoutEntry)) (f : Firing)
    (slots : List Handle) :
    (Pool.visitList (noteVisits (fireEntry now)) (f, slots) rest).1.2 =
      slots ++ rest.map (·.1) := by
  induction rest generalizing f slots with
  | nil => exact (List.append_nil _).symm
  | cons entry rest ih =>
    simp only [Pool.visitList, noteVisits]
    rw [ih, List.append_assoc]
    rfl

theorem seenSlots_eq (h : s.entries.Sound free alloc) (wakes : Wakes) (now : Tick) :
    s.seenSlots wakes now = s.entries.toList.map (·.1) := by
  rw [seenSlots, (Pool.sweep_spec _ _ h).state, visitList_noteVisits, List.nil_append]

theorem fireEntry_entry (now : Tick) (f : Firing) (slot : Handle) (e : TimeoutEntry) :
    e.Continues (fireEntry now f slot e).2.1 := by
  unfold fireEntry
  split
  · split
    · rename_i hperiodic
      exact ⟨rfl, fun honce => absurd (hperiodic.symm.trans honce) (by decide)⟩
    · exact ⟨rfl, fun _ => rfl⟩
  · exact ⟨rfl, fun _ => rfl⟩

theorem kept_of_visitList (now : Tick) (rest : List (Handle × TimeoutEntry)) (f : Firing) :
    ((Pool.visitList (fireEntry now) f rest).2.map (·.1)).Sublist (rest.map (·.1)) ∧
      ∀ entry ∈ (Pool.visitList (fireEntry now) f rest).2,
        ∃ e, (entry.1, e) ∈ rest ∧ e.Continues entry.2 := by
  induction rest generalizing f with
  | nil => exact ⟨List.Sublist.slnil, nofun⟩
  | cons entry rest ih =>
    obtain ⟨slot, e⟩ := entry
    have hentry := fireEntry_entry now f slot e
    simp only [Pool.visitList]
    generalize fireEntry now f slot e = visited at hentry
    obtain ⟨f', e', verdict⟩ := visited
    obtain ⟨hsub, hkept⟩ := ih f'
    cases verdict with
    | keep =>
      refine ⟨hsub.cons_cons slot, fun kept hmem => ?_⟩
      rcases List.mem_cons.1 hmem with rfl | hmem
      · exact ⟨e, List.mem_cons_self, hentry⟩
      · obtain ⟨e, he, hcontinues⟩ := hkept kept hmem
        exact ⟨e, List.mem_cons_of_mem _ he, hcontinues⟩
    | release =>
      refine ⟨hsub.cons slot, fun kept hmem => ?_⟩
      obtain ⟨e, he, hcontinues⟩ := hkept kept hmem
      exact ⟨e, List.mem_cons_of_mem _ he, hcontinues⟩

theorem kept_of_fire (h : s.entries.Sound free alloc) (wakes : Wakes) (now : Tick) :
    ((s.fire wakes now).2.1.entries.toList.map (·.1)).Sublist (s.entries.toList.map (·.1)) ∧
      ∀ entry ∈ (s.fire wakes now).2.1.entries.toList,
        ∃ e, (entry.1, e) ∈ s.entries.toList ∧ e.Continues entry.2 := by
  have hswept := Pool.sweep_spec (fireEntry now) { fired := 0, caps := s.caps, wakes } h
  have htoList : (s.fire wakes now).2.1.entries.toList =
      (Pool.visitList (fireEntry now) { fired := 0, caps := s.caps, wakes } s.entries.toList).2 :=
    hswept.toList
  rw [htoList]
  exact kept_of_visitList now _ _

theorem sublist_of_cancel (h : s.entries.Sound free alloc) (id : TimeoutId) :
    (s.cancel id).2.entries.toList.Sublist s.entries.toList := by
  rcases cancel_cases s id with hsame | ⟨slot, hlive, hreleased⟩
  · rw [hsame]
  · obtain ⟨before, after, rfl⟩ :=
      List.append_of_mem ((h.marked slot.index).1 (Pool.allocated_of_isLive hlive))
    rw [hreleased, h.toList_release, h.toList_eq, List.filterMap_append]
    exact (List.Sublist.refl _).append ((List.sublist_cons_self _ _).filterMap _)

end Schedule

namespace ClockState

variable {s : ClockState} {free alloc : List Nat}

/-- What the clock answers, and what becomes of the entries. -/
structure Served (s : ClockState) (badge : Badge) (m : ClockMessage) (next : Reply × ClockState) :
    Prop where
  sound : ∃ free alloc, next.2.schedule.entries.Sound free alloc
  tick_eq : next.2.tick = s.tick
  cases : match Request.decode m with
    | .error _ => next = (.failed .badRequest, s)
    | .ok .getTime => next = (.time s.tick, s)
    | .ok (.cancelTimeout _) => (next.1 = .cancelled ∨ next.1 = .failed .failed) ∧
      next.2.schedule.entries.toList.Sublist s.schedule.entries.toList
    | .ok (.setTimeout periodic period _) =>
      next.1 = .failed .failed ∧ next.2.schedule.entries = s.schedule.entries ∨
      ∃ id slot, next.1 = .scheduled id s.tick ∧
        next.2.schedule.entries.toList = s.schedule.entries.toList ++
          [(slot, { id, requester := badge, periodic, period, nextFire := s.tick + period })]

theorem served (h : s.schedule.entries.Sound free alloc) (badge : Badge) (m : ClockMessage) :
    s.Served badge m (s.serve badge m) := by
  refine ⟨(sound_serve ⟨free, alloc, h⟩ badge m).1, tick_serve s badge m, ?_⟩
  simp only [serve, Request.ofMessage]
  cases Request.decode m with
  | error e => rfl
  | ok request =>
    cases request with
    | getTime => rfl
    | cancelTimeout id =>
      refine ⟨reply_cancel s badge id, ?_⟩
      have hsub := Schedule.sublist_of_cancel h id
      simp only [handle]
      split <;> rename_i heq <;> rwa [heq] at hsub
    | setTimeout periodic period wake =>
      simp only [handle]
      rcases Schedule.insert_cases s.schedule s.tick badge periodic period wake with
        ⟨e, schedule, hinsert, hsame⟩ | ⟨id, slot, entries, caps, hallocate, hinsert⟩
      · rw [hinsert]
        exact Or.inl ⟨rfl, hsame⟩
      · rw [hinsert]
        exact Or.inr ⟨id, slot, rfl, (Schedule.insert_of_allocate h hallocate _).2⟩

end ClockState

end Osal
