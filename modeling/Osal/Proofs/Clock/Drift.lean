import Osal.Proofs.Clock.Beat
import Osal.Proofs.Clock.Consistency

/-!
# Periodic timeouts do not drift

`never_drifts` follows one periodic timeout of a running clock from its grant for as long as nobody
cancels it. Its fires are those of a `Beat` that begins at the time of the grant. The timer loop
holds the schedule from the store of the tick to the end of the fire, so no timeout is granted between
the two, and every fire after the grant is one interrupt of the beat.

Names may come back, so that a timeout is followed by its number. A cancellation takes out no other
timeout than one with the name it was given (`mem_cancel`).
-/

namespace Osal

namespace Schedule

variable {s : Schedule} {id : TimeoutId}

/-! ## What is left of other timeouts -/

/-- The pool tells timeouts apart by their names. -/
def ComparesNames (s : Schedule) : Prop := s.entries.equal = fun a b => a.id == b.id

theorem ComparesNames.insert (h : s.ComparesNames) (now : Tick) (requester : Badge)
    (periodic : Bool) (period : Tick) (wake : NotificationId) :
    (s.insert now requester periodic period wake).2.ComparesNames := by
  rcases insert_cases s now requester periodic period wake with ⟨e, s', hinsert, hsame⟩ |
    ⟨id, slot, entries, caps, hallocate, hinsert⟩
  · rw [hinsert, ComparesNames, hsame]
    exact h
  · rw [hinsert]
    rw [Pool.allocate] at hallocate
    split at hallocate
    · cases hallocate
    · cases hallocate
      exact h

theorem ComparesNames.cancel (h : s.ComparesNames) (id : TimeoutId) :
    (s.cancel id).2.ComparesNames := by
  rw [ComparesNames]
  rcases cancel_cases s id with hsame | ⟨slot, -, hreleased⟩
  · rw [hsame]
    exact h
  · rw [hreleased]
    exact h

theorem ComparesNames.fire (h : s.ComparesNames) (hpool : ∃ free alloc, s.entries.Sound free alloc)
    (wakes : Wakes) (now : Tick) : (s.fire wakes now).2.1.ComparesNames := by
  obtain ⟨free, alloc, hpool⟩ := hpool
  exact (Pool.sweep_spec (fireEntry now) { fired := 0, caps := s.caps, wakes } hpool).equal.trans h

theorem mem_cancel (hpool : ∃ free alloc, s.entries.Sound free alloc) (h : s.ComparesNames)
    {entry : Handle × TimeoutEntry} (hentry : entry ∈ s.entries.toList) :
    entry ∈ (s.cancel id).2.entries.toList ∨ entry.2.id = id := by
  obtain ⟨free, alloc, hpool⟩ := hpool
  rw [cancel]
  cases hfind : s.find id with
  | none => exact .inl hentry
  | some slot =>
    rw [find, Pool.find, h] at hfind
    obtain ⟨front, e, back, hlist, hnamed, -⟩ := Pool.split_of_findBy hfind
    obtain ⟨hfree, hkept, -⟩ := hpool.free_of_split hlist
    have hleft : entry ∈ (s.entries.release slot.index).toList ∨ entry.2.id = id := by
      rw [hlist, List.mem_append, List.mem_cons] at hentry
      rw [hkept, List.mem_append]
      rcases hentry with hfront | rfl | hback
      · exact .inl (.inl hfront)
      · exact .inr (eq_of_beq hnamed)
      · exact .inl (.inr hback)
    simp only [hfree]
    split <;> exact hleft

end Schedule

/-- A periodic timeout whose deadlines stay where ticks compare as times do. -/
structure TimeoutEntry.Recurs (made : TimeoutEntry) : Prop where
  periodic : made.periodic = true
  pos : 1 ≤ made.period.toNat
  le : made.period.toNat ≤ 2147483648

namespace ClockState

variable {s : ClockState}

theorem comparesNames_serve (h : s.schedule.ComparesNames) (badge : Badge) (m : ClockMessage) :
    (s.serve badge m).2.schedule.ComparesNames := by
  rw [serve]
  cases (Request.ofMessage m).1 with
  | error _ => exact h
  | ok request =>
    cases request with
    | getTime => exact h
    | cancelTimeout id =>
      have hcancelled := h.cancel id
      simp only [handle]
      split <;> rename_i heq <;> rwa [heq] at hcancelled
    | setTimeout periodic period wake =>
      have hinserted := h.insert s.tick badge periodic period wake
      simp only [handle]
      split <;> rename_i heq <;> rwa [heq] at hinserted

theorem schedule_serve_cancel {badge : Badge} {m : ClockMessage} {id : TimeoutId}
    (hm : Request.decode m = .ok (.cancelTimeout id)) :
    (s.serve badge m).2.schedule = (s.schedule.cancel id).2 := by
  simp only [serve, Request.ofMessage, hm, handle]
  split <;> rename_i heq <;> rw [heq]

theorem mem_serve (hpool : ∃ free alloc, s.schedule.entries.Sound free alloc)
    (h : s.schedule.ComparesNames) (badge : Badge) (m : ClockMessage)
    {entry : Handle × TimeoutEntry} (hentry : entry ∈ s.schedule.entries.toList) :
    entry ∈ (s.serve badge m).2.schedule.entries.toList ∨
      Request.decode m = .ok (.cancelTimeout entry.2.id) := by
  obtain ⟨free, alloc, hsound⟩ := hpool
  have hcases := (served hsound badge m).cases
  cases hm : Request.decode m with
  | error _ =>
    rw [hm] at hcases
    rw [hcases]
    exact .inl hentry
  | ok request =>
    rw [hm] at hcases
    cases request with
    | getTime =>
      rw [hcases]
      exact .inl hentry
    | setTimeout periodic period wake =>
      rcases hcases with ⟨-, hsame⟩ | ⟨id, slot, -, hadded⟩
      · rw [hsame]
        exact .inl hentry
      · rw [hadded]
        exact .inl (List.mem_append_left _ hentry)
    | cancelTimeout id =>
      rw [schedule_serve_cancel hm]
      rcases Schedule.mem_cancel ⟨free, alloc, hsound⟩ h hentry with hleft | hid
      · exact .inl hleft
      · exact .inr (by rw [hid])

end ClockState

namespace RunningClock

variable {period : Tick} {c c' : RunningClock} {event : Event} {history past news : List Deed}
  {number start deadline : Nat} {made : TimeoutEntry}

/-! ## When a timeout fires -/

def grantTime (period : Tick) (number : Nat) : List Deed → Option Nat
  | [] => none
  | .handled _ _ (some _) :: past =>
    if (tally past).grants.length = number then some (period.toNat * (tally past).stored)
    else grantTime period number past
  | _ :: past => grantTime period number past

def firesOf (period : Tick) (number : Nat) : List Deed → List Nat
  | [] => []
  | .fired _ _ _ due :: past =>
    firesOf period number past ++
      List.replicate (due.count number) (period.toNat * (tally past).stored)
  | _ :: past => firesOf period number past

def interruptsOf (period : Tick) : List Deed → List Nat
  | [] => []
  | .fired .. :: past => interruptsOf period past ++ [period.toNat * (tally past).stored]
  | _ :: past => interruptsOf period past

/-- The name in the call that the server handles next, if that is a cancellation. -/
def cancelling (c : RunningClock) : Option TimeoutId :=
  match c.clock.serverPhase with
  | .handling k =>
    match (c.clock.endpoint.call? k).map fun call => Request.decode call.message with
    | some (.ok (.cancelTimeout id)) => some id
    | _ => none
  | _ => none

def cancels (number : Nat) (c : RunningClock) : Event → Bool
  | .server =>
    c.pending.any (fun entry => entry.1 == number && c.cancelling == some entry.2.id) &&
      (c.handle .server).pending.all (·.1 != number)
  | _ => false

/-- Whether a timeout is never cancelled while events happen. -/
def uncancelled (number : Nat) (c : RunningClock) : List Event → Bool
  | [] => true
  | event :: events => !c.cancels number event && (c.handle event).uncancelled number events

/-! ## What an event does to the timeouts -/

/-- Whether a deed has nothing to do with timeouts. -/
def Deed.isIdle : Deed → Bool
  | .handled .. | .fired .. => false
  | _ => true

/-- The server handles a call. -/
structure Handles (c : RunningClock) (call : Call NotificationId) (c' : RunningClock) : Prop where
  held : ∃ k, c.clock.serverPhase = .handling k ∧ c.clock.endpoint.call? k = some call
  free : SysClock.needsSchedule call.message = true → c.clock.timerPhase ≠ .ticked
  schedule_eq : c'.clock.state.schedule =
    (c.clock.state.serve call.badge call.message).2.schedule
  numbers_eq : c'.numbers =
    (grantedBy c'.clock.state.schedule (c.clock.state.serve call.badge call.message).1).elim
      c.numbers fun entry =>
        Function.update c.numbers entry.1.index (tally c.history).grants.length
  history_eq : c'.history =
    .handled call (c.clock.state.serve call.badge call.message).1
      ((grantedBy c'.clock.state.schedule
        (c.clock.state.serve call.badge call.message).1).map (·.2)) :: c.history

/-- The timer loop fires. -/
structure Fires (c c' : RunningClock) : Prop where
  phase : c.clock.timerPhase = .ticked
  schedule_eq : c'.clock.state.schedule =
    (c.clock.state.schedule.fire c.wakes c.clock.now).2.1
  numbers_eq : c'.numbers = c.numbers
  history_eq : c'.history =
    .fired c.clock.now c.pending
      ((c.clock.state.schedule.seenSlots c.wakes c.clock.now).map fun slot =>
        c.numbers slot.index)
      ((c.clock.state.schedule.firedSlots c.wakes c.clock.now).map fun slot =>
        c.numbers slot.index) :: c.history

/-- What an event does to the schedule, the numbers and the history. -/
inductive Moves (c : RunningClock) (event : Event) (c' : RunningClock) : Prop where
  | rest (news : List Deed) (hidle : ∀ deed ∈ news, deed.isIdle = true)
    (hschedule : c'.clock.state.schedule = c.clock.state.schedule)
    (hnumbers : c'.numbers = c.numbers) (hhistory : c'.history = news ++ c.history)
  | serve {call : Call NotificationId} (hevent : event = .server) (h : c.Handles call c')
  | fire (h : c.Fires c')

namespace Moves

theorem quiet (hschedule : c'.clock.state.schedule = c.clock.state.schedule)
    (hnumbers : c'.numbers = c.numbers) (hhistory : c'.history = c.history) : c.Moves event c' :=
  .rest [] nofun hschedule hnumbers hhistory

theorem tell (deed : Deed) (hidle : deed.isIdle = true)
    (hschedule : c'.clock.state.schedule = c.clock.state.schedule)
    (hnumbers : c'.numbers = c.numbers) (hhistory : c'.history = deed :: c.history) :
    c.Moves event c' :=
  .rest [deed] (fun _ hmem => List.mem_singleton.1 hmem ▸ hidle) hschedule hnumbers hhistory

theorem timer {clock : SysClock} {wakes : Wakes}
    (hstep : c.clock.TimerSteps c.wakes clock wakes) :
    c.Moves event { c with clock, wakes, history := c.timerNews clock ++ c.history } := by
  cases hstep with
  | interrupt hphase | stop hphase | fail hphase =>
    exact quiet rfl rfl (by simp only [timerNews, hphase]; rfl)
  | store hphase => exact tell .stored rfl rfl rfl (by simp only [timerNews, hphase]; rfl)
  | fire hphase => exact .fire ⟨hphase, rfl, rfl, by simp only [timerNews, hphase]; rfl⟩
  | acknowledge hphase =>
    exact tell .acknowledged rfl rfl rfl (by simp only [timerNews, hphase]; rfl)

theorem server {clock : SysClock} (hstep : c.clock.ServerSteps clock) :
    c.Moves .server (c.serve clock) := by
  cases hstep with
  | receive hphase | close hphase | skip hphase | reply hphase =>
    simp only [RunningClock.serve, hphase]
    exact quiet rfl rfl rfl
  | handle hphase hcall hfree =>
    simp only [RunningClock.serve, hphase, hcall]
    exact .serve rfl ⟨⟨_, hphase, hcall⟩, hfree, rfl, rfl, rfl⟩

theorem handle (c : RunningClock) (event : Event) : c.Moves event (c.handle event) := by
  have hsame : c.Moves event c := quiet rfl rfl rfl
  cases event with
  | start =>
    simp only [RunningClock.handle]
    split
    · rename_i hstart
      obtain ⟨-, rfl⟩ := SysClock.start_eq_ok hstart
      exact quiet rfl rfl rfl
    · exact hsame
  | send => exact tell (.sent ..) rfl rfl rfl rfl
  | collect =>
    simp only [RunningClock.handle]
    split
    · exact tell (.returned ..) rfl rfl rfl rfl
    · exact hsame
  | timer =>
    simp only [RunningClock.handle]
    split
    · exact timer (SysClock.timerSteps_of_step ‹_›)
    · exact hsame
  | server =>
    simp only [RunningClock.handle]
    split
    · exact server (SysClock.serverSteps_of_step ‹_›)
    · exact hsame
  | fire raiser =>
    simp only [RunningClock.handle]
    split
    · exact tell (.begun raiser) rfl rfl rfl rfl
    · exact hsame
  | raise raiser =>
    simp only [RunningClock.handle]
    split
    · rename_i p _
      split
      · rename_i next _
        refine tell (raiserNews raiser p next) ?_ rfl rfl rfl
        cases p <;> cases next <;> rfl
      · exact hsame
    · exact hsame
  | dropHandle | leave => exact quiet rfl rfl rfl

theorem exists_history (h : c.Moves event c') : ∃ news, c'.history = news ++ c.history := by
  cases h with
  | rest news hidle hschedule hnumbers hhistory => exact ⟨news, hhistory⟩
  | serve _ hhandles => exact ⟨[_], hhandles.history_eq⟩
  | fire hfires => exact ⟨[_], hfires.history_eq⟩

theorem comparesNames (h : c.Moves event c') (hpool : ∃ free alloc,
      c.clock.state.schedule.entries.Sound free alloc)
    (hnames : c.clock.state.schedule.ComparesNames) : c'.clock.state.schedule.ComparesNames := by
  cases h with
  | rest _ _ hschedule => exact hschedule ▸ hnames
  | serve _ hhandles =>
    exact hhandles.schedule_eq ▸ ClockState.comparesNames_serve hnames _ _
  | fire hfires => exact hfires.schedule_eq ▸ hnames.fire hpool _ _

end Moves

/-! ## What a history says of a timeout -/

theorem idle_append (period : Tick) (number : Nat) (hidle : ∀ deed ∈ news, deed.isIdle = true)
    (past : List Deed) :
    (tally (news ++ past)).grants = (tally past).grants ∧
      (tally (news ++ past)).fired = (tally past).fired ∧
      grantTime period number (news ++ past) = grantTime period number past ∧
      firesOf period number (news ++ past) = firesOf period number past := by
  induction news with
  | nil => exact ⟨rfl, rfl, rfl, rfl⟩
  | cons deed news ih =>
    have hrest := ih fun other hother => hidle other (List.mem_cons_of_mem _ hother)
    cases deed with
    | handled | fired => exact absurd (hidle _ List.mem_cons_self) Bool.false_ne_true
    | sent | returned | stored | acknowledged | begun | raised | heard | ended => exact hrest

theorem grantTime_handled {call : Call NotificationId} {reply : Reply}
    {granted : Option TimeoutEntry} (h : number < (tally past).grants.length) :
    grantTime period number (.handled call reply granted :: past) =
      grantTime period number past := by
  cases granted with
  | none => rfl
  | some e => exact if_neg (Nat.ne_of_gt h)

theorem firesOf_of_new (h : Lawful (Law period) history)
    (hnew : (tally history).grants.length ≤ number) : firesOf period number history = [] := by
  induction history with
  | nil => rfl
  | cons deed past ih =>
    obtain ⟨hlaw, hpast⟩ := lawful_cons.1 h
    have hle := (tally_mono [deed] past).2.1.length_le
    have hrest := ih hpast (Nat.le_trans hle hnew)
    cases deed with
    | fired now pending seen due =>
      obtain ⟨-, -, -, -, hdue, hpending⟩ := hlaw
      have habsent : number ∉ due := fun hmem => by
        rw [hdue] at hmem
        obtain ⟨entry, hentry, rfl⟩ := List.mem_map.1 hmem
        have hlt := (hpending entry (List.mem_filter.1 hentry).1).lt_length
        exact Nat.not_le_of_lt hlt hnew
      rw [firesOf, hrest, List.count_eq_zero_of_not_mem habsent]
      rfl
    | sent | handled | returned | stored | acknowledged | begun | raised | heard | ended =>
      exact hrest

theorem interruptsOf_eq (h : Lawful (Law period) history) :
    interruptsOf period history = interruptTimes period.toNat (tally history).fired := by
  induction history with
  | nil => rfl
  | cons deed past ih =>
    obtain ⟨hlaw, hpast⟩ := lawful_cons.1 h
    have hrest := ih hpast
    cases deed with
    | fired =>
      obtain ⟨-, hstored, -⟩ := hlaw
      rw [interruptsOf, hrest, hstored, Nat.mul_succ]
      exact (interruptTimes_succ ..).symm
    | sent | handled | returned | stored | acknowledged | begun | raised | heard | ended =>
      exact hrest

theorem Answer.nextFire_eq {t : Tally} {badge : Badge} {m : ClockMessage} {reply : Reply}
    {e : TimeoutEntry} (h : Answer period t badge m reply (some e)) :
    SysClock.needsSchedule m = true ∧ e.nextFire = t.tick + e.period := by
  unfold Answer at h
  unfold SysClock.needsSchedule Request.ofMessage
  cases hm : Request.decode m with
  | error _ =>
    rw [hm] at h
    cases h.2
  | ok request =>
    rw [hm] at h
    cases request with
    | getTime | cancelTimeout => cases h.2
    | setTimeout periodic ms wake =>
      rcases h with ⟨-, hnone⟩ | ⟨id, -, hgranted⟩
      · cases hnone
      · cases hgranted
        exact ⟨rfl, rfl⟩

/-! ## On the beat -/

theorem snd_eq_of_nodup {entries : List (Nat × TimeoutEntry)} (h : (entries.map (·.1)).Nodup)
    {e e' : TimeoutEntry} (he : (number, e) ∈ entries) (he' : (number, e') ∈ entries) : e' = e :=
  congrArg Prod.snd (List.inj_on_of_nodup_map h he' he rfl)

theorem count_filter {entries : List (Nat × TimeoutEntry)} (h : (entries.map (·.1)).Nodup)
    {e : TimeoutEntry} (he : (number, e) ∈ entries) (p : TimeoutEntry → Bool) :
    ((entries.filter (p ·.2)).map (·.1)).count number = if p e then 1 else 0 := by
  have hsub : (entries.filter (p ·.2)).Sublist entries := List.filter_sublist
  have hmem : number ∈ (entries.filter (p ·.2)).map (·.1) ↔ p e = true := by
    rw [List.mem_map]
    constructor
    · rintro ⟨⟨_, e'⟩, hfound, rfl⟩
      obtain ⟨he', hp⟩ := List.mem_filter.1 hfound
      rwa [snd_eq_of_nodup h he he'] at hp
    · exact fun hp => ⟨_, List.mem_filter.2 ⟨he, hp⟩, rfl⟩
  rw [(h.sublist (hsub.map (·.1))).count]
  exact if_congr hmem rfl rfl

/-- A timeout that was granted at a time is pending, and has fired on its beat so far. -/
structure OnBeat (period : Tick) (number : Nat) (made : TimeoutEntry) (start deadline : Nat)
    (c : RunningClock) : Prop where
  granted : grantTime period number c.history = some start
  isPending : (number, Beat.entryAt made deadline) ∈ c.pending
  beat : Beat period.toNat made.period.toNat start (tally c.history).fired
    (firesOf period number c.history) deadline

namespace Handles

variable {call : Call NotificationId}

theorem pending_cases (h : c.Handles call c') (hkept : Kept period c) :
    (c'.history =
        .handled call (c.clock.state.serve call.badge call.message).1 none :: c.history ∧
      c'.numbers = c.numbers ∧ c'.pending.Sublist c.pending) ∨
    ∃ e, c'.history =
        .handled call (c.clock.state.serve call.badge call.message).1 (some e) :: c.history ∧
      c'.pending = c.pending ++ [((tally c.history).grants.length, e)] ∧
      Answer period (tally c.history) call.badge call.message
        (c.clock.state.serve call.badge call.message).1 (some e) := by
  obtain ⟨free, alloc, hpool⟩ := hkept.entries.sound
  have hserved := ClockState.served hpool call.badge call.message
  have hcases := Kept.granted_cases hserved hkept.paced.tick fun hneeds =>
    hkept.paced.last (h.free hneeds)
  have hnumbers := h.numbers_eq
  have hhistory := h.history_eq
  rw [h.schedule_eq] at hnumbers hhistory
  rcases hcases with ⟨hnone, hsub, -⟩ | ⟨slot, e, hsome, htoList, hanswer⟩
  · rw [hnone] at hnumbers hhistory
    refine .inl ⟨hhistory, hnumbers, ?_⟩
    rw [pending, h.schedule_eq, hnumbers]
    exact hsub.map _
  · rw [hsome] at hnumbers hhistory
    refine .inr ⟨e, hhistory, ?_, hanswer⟩
    rw [pending, h.schedule_eq, hnumbers]
    exact numbered_grant hserved.sound htoList c.numbers (tally c.history).grants.length

theorem cancelling_eq (h : c.Handles call c') {id : TimeoutId}
    (hm : Request.decode call.message = .ok (.cancelTimeout id)) : c.cancelling = some id := by
  obtain ⟨k, hphase, hcall⟩ := h.held
  rw [cancelling, hphase]
  simp only [hcall, Option.map_some, hm]

theorem mem_pending (h : c.Handles call c') (hkept : Kept period c)
    (hnames : c.clock.state.schedule.ComparesNames) {e : TimeoutEntry}
    (he : (number, e) ∈ c.pending) :
    (number, e) ∈ c'.pending ∨ (c.cancelling = some e.id ∧ number ∉ c'.pending.map (·.1)) := by
  rcases h.pending_cases hkept with ⟨-, hnumbers, hsub⟩ | ⟨e', -, hpending, -⟩
  · obtain ⟨entry, hentry, heq⟩ := List.mem_map.1 he
    obtain ⟨-, rfl⟩ := Prod.mk.inj heq
    rcases ClockState.mem_serve hkept.entries.sound hnames call.badge call.message hentry with
      hleft | hasked
    · refine .inl ?_
      rw [pending, h.schedule_eq, hnumbers]
      exact List.mem_map.2 ⟨entry, hleft, heq⟩
    · by_cases hgone : number ∈ c'.pending.map (·.1)
      · obtain ⟨⟨_, e'⟩, hleft, rfl⟩ := List.mem_map.1 hgone
        obtain rfl := snd_eq_of_nodup hkept.entries.nodup he (hsub.subset hleft)
        exact .inl hleft
      · exact .inr ⟨h.cancelling_eq hasked, hgone⟩
  · rw [hpending]
    exact .inl (List.mem_append_left _ he)

end Handles

namespace OnBeat

theorem lt_length (h : OnBeat period number made start deadline c) (hkept : Kept period c) :
    number < (tally c.history).grants.length :=
  (hkept.entries.isPending _ h.isPending).lt_length

theorem rest (h : OnBeat period number made start deadline c)
    (hidle : ∀ deed ∈ news, deed.isIdle = true)
    (hschedule : c'.clock.state.schedule = c.clock.state.schedule)
    (hnumbers : c'.numbers = c.numbers) (hhistory : c'.history = news ++ c.history) :
    OnBeat period number made start deadline c' := by
  obtain ⟨-, hfired, hgrant, hfires⟩ := idle_append period number hidle c.history
  refine ⟨?_, ?_, ?_⟩
  · rw [hhistory, hgrant]
    exact h.granted
  · rw [pending, hschedule, hnumbers]
    exact h.isPending
  · rw [hhistory, hfired, hfires]
    exact h.beat

theorem serve (h : OnBeat period number made start deadline c) (hkept : Kept period c)
    (hnames : c.clock.state.schedule.ComparesNames) {call : Call NotificationId}
    (hhandles : c.Handles call c')
    (hsafe : c.cancelling = some made.id → number ∈ c'.pending.map (·.1)) :
    OnBeat period number made start deadline c' := by
  refine ⟨?_, ?_, ?_⟩
  · rw [hhandles.history_eq, grantTime_handled (h.lt_length hkept)]
    exact h.granted
  · rcases hhandles.mem_pending hkept hnames h.isPending with hleft | ⟨hasked, hgone⟩
    · exact hleft
    · exact absurd (hsafe hasked) hgone
  · rw [hhandles.history_eq]
    exact h.beat

theorem fire (h : OnBeat period number made start deadline c) (hkept : Kept period c)
    (hinterval : period.toNat ≤ 2147483646) (hmade : made.Recurs) (hfires : c.Fires c') :
    ∃ deadline', OnBeat period number made start deadline' c' := by
  have hhistory := hfires.history_eq
  obtain ⟨hnow, hstored, -, -, hdue, -⟩ := hkept.lawful_of_fire hfires.phase
  rw [hdue] at hhistory
  have htime : period.toNat * (tally c.history).stored =
      period.toNat * (tally c.history).fired + period.toNat := by
    rw [hstored, Nat.mul_succ]
  rw [tickAfter] at hnow
  have hfired := h.beat.firedAs_entryAt hinterval hmade.le hmade.periodic htime
  have hisDue := h.beat.isDue_entryAt made hinterval hmade.le htime
  refine ⟨nextDeadline made.period.toNat (period.toNat * (tally c.history).stored) deadline,
    ?_, ?_, ?_⟩
  · rw [hhistory]
    exact h.granted
  · have hstays : (Beat.entryAt made deadline).staysAt c.clock.now = true := by
      rw [TimeoutEntry.staysAt, show (Beat.entryAt made deadline).periodic = true from
        hmade.periodic]
      rfl
    obtain ⟨⟨slot, e⟩, hmem, heq⟩ := List.mem_map.1 h.isPending
    obtain ⟨rfl, rfl⟩ := Prod.mk.inj heq
    rw [pending, numbered, hfires.schedule_eq, hfires.numbers_eq,
      Schedule.toList_fire hkept.entries.sound c.wakes c.clock.now, ← hfired, ← hnow]
    exact List.mem_map.2 ⟨_, List.mem_map.2 ⟨_, List.mem_filter.2 ⟨hmem, hstays⟩, rfl⟩, rfl⟩
  · have hnodup : (c.pending.map (·.1)).Nodup := hkept.entries.nodup
    have hcount := count_filter hnodup h.isPending (·.isDue c.clock.now)
    rw [hnow, hisDue] at hcount
    simp only [decide_eq_true_eq] at hcount
    rw [hhistory, firesOf, hnow, hcount]
    exact h.beat.interrupt htime hmade.pos

theorem handle (h : OnBeat period number made start deadline c) (hkept : Kept period c)
    (hnames : c.clock.state.schedule.ComparesNames) (hinterval : period.toNat ≤ 2147483646)
    (hmade : made.Recurs) (event : Event) (hsafe : c.cancels number event = false) :
    ∃ deadline', OnBeat period number made start deadline' (c.handle event) := by
  cases Moves.handle c event with
  | rest news hidle hschedule hnumbers hhistory =>
    exact ⟨deadline, h.rest hidle hschedule hnumbers hhistory⟩
  | serve hevent hhandles =>
    refine ⟨deadline, h.serve hkept hnames hhandles fun hcancelling => ?_⟩
    by_contra hgone
    refine Bool.false_ne_true (hsafe.symm.trans ?_)
    rw [hevent, cancels, Bool.and_eq_true, List.any_eq_true, List.all_eq_true, ← hevent]
    refine ⟨⟨_, h.isPending, ?_⟩, fun entry hentry => ?_⟩
    · rw [hcancelling]
      simp [Beat.entryAt]
    · rw [bne_iff_ne]
      rintro rfl
      exact hgone (List.mem_map_of_mem hentry)
  | fire hfires => exact h.fire hkept hinterval hmade hfires

/-- The server grants a timeout between two fires. -/
theorem begin (hkept : Kept period c) {call : Call NotificationId} {reply : Reply}
    (hfree : SysClock.needsSchedule call.message = true → c.clock.timerPhase ≠ .ticked)
    (hhistory : c'.history = .handled call reply (some made) :: c.history)
    (hpending : c'.pending = c.pending ++ [((tally c.history).grants.length, made)])
    (hanswer : Answer period (tally c.history) call.badge call.message reply (some made))
    (hpos : 1 ≤ made.period.toNat) :
    OnBeat period (tally c.history).grants.length made (period.toNat * (tally c.history).fired)
      (period.toNat * (tally c.history).fired + made.period.toNat) c' := by
  obtain ⟨hneeds, hnext⟩ := hanswer.nextFire_eq
  have hstored := hkept.paced.stored
  rw [if_neg (hfree hneeds), Nat.add_zero] at hstored
  rw [← hkept.paced.last (hfree hneeds), hkept.paced.tick, tickAfter, hstored] at hnext
  refine ⟨?_, ?_, ?_⟩
  · rw [hhistory, grantTime, if_pos rfl, hstored]
  · rw [hpending, Beat.entryAt, UInt32.ofNat_add, UInt32.ofNat_toNat, ← hnext]
    exact List.mem_append_right _ (List.mem_singleton_self _)
  · rw [hhistory]
    change Beat _ _ _ (tally c.history).fired (firesOf period _ c.history) _
    rw [firesOf_of_new hkept.lawful (Nat.le_refl _)]
    exact Beat.first hpos

/-- A timeout is on its beat from its grant. -/
theorem of_granted (hkept : Kept period c) (hnew : (tally c.history).grants[number]? = none)
    (hmade : (tally (c.handle event).history).grants[number]? = some made)
    (hpos : 1 ≤ made.period.toNat) :
    ∃ start deadline, OnBeat period number made start deadline (c.handle event) := by
  have hlen := List.getElem?_eq_none_iff.1 hnew
  cases Moves.handle c event with
  | rest news hidle hschedule hnumbers hhistory =>
    have hsame := (idle_append period number hidle c.history).1
    rw [hhistory, hsame, hnew] at hmade
    cases hmade
  | fire hfires =>
    rw [hfires.history_eq] at hmade
    cases hnew.symm.trans hmade
  | serve hevent hhandles =>
    rcases hhandles.pending_cases hkept with ⟨hhistory, -, -⟩ | ⟨e, hhistory, hpending, hanswer⟩
    · rw [hhistory] at hmade
      change ((tally c.history).grants ++ [])[number]? = some made at hmade
      rw [List.append_nil, hnew] at hmade
      cases hmade
    · rw [hhistory] at hmade
      change ((tally c.history).grants ++ [e])[number]? = some made at hmade
      have hlt := (List.getElem?_eq_some_iff.1 hmade).1
      rw [List.length_append, List.length_singleton] at hlt
      obtain rfl : number = (tally c.history).grants.length := by omega
      rw [List.getElem?_append_right (Nat.le_refl _), Nat.sub_self] at hmade
      obtain rfl := Option.some.inj hmade
      exact ⟨_, _, begin hkept hhandles.free hhistory hpending hanswer hpos⟩

end OnBeat

/-! ## A run -/

/-- If a timeout was granted, it is on its beat. -/
def Steady (period : Tick) (number : Nat) (c : RunningClock) : Prop :=
  ∀ made, (tally c.history).grants[number]? = some made → made.Recurs →
    ∃ start deadline, OnBeat period number made start deadline c

theorem Steady.handle (h : Steady period number c) (hkept : Kept period c)
    (hnames : c.clock.state.schedule.ComparesNames) (hinterval : period.toNat ≤ 2147483646)
    (event : Event) (hsafe : c.cancels number event = false) :
    Steady period number (c.handle event) := by
  intro made hmade hrecurs
  cases hold : (tally c.history).grants[number]? with
  | none => exact OnBeat.of_granted hkept hold hmade hrecurs.pos
  | some made' =>
    obtain ⟨news, hhistory⟩ := (Moves.handle c event).exists_history
    have hgrants := (tally_mono news c.history).2.1
    rw [← hhistory] at hgrants
    have hsame := (getElem?_of_initial hgrants hold).symm.trans hmade
    obtain rfl := Option.some.inj hsame
    obtain ⟨start, deadline, hbeat⟩ := h _ hold hrecurs
    exact ⟨start, hbeat.handle hkept hnames hinterval hrecurs event hsafe⟩

theorem Steady.run (h : Steady period number c) (hkept : Kept period c)
    (hnames : c.clock.state.schedule.ComparesNames) (hinterval : period.toNat ≤ 2147483646)
    (events : List Event) (hsafe : c.uncancelled number events = true) :
    Steady period number (c.run events) := by
  induction events generalizing c with
  | nil => exact h
  | cons event events ih =>
    rw [uncancelled, Bool.and_eq_true, Bool.not_eq_true'] at hsafe
    exact ih (h.handle hkept hnames hinterval event hsafe.1) (hkept.handle event)
      ((Moves.handle c event).comparesNames hkept.entries.sound hnames) hsafe.2

/-- A periodic timeout does not drift. Once granted, and as long as nobody cancels it, each of its
fires is at the first interrupt that is not before the time meant for it, counted from the grant; if
its period is too short for that, it fires once at every interrupt. The times are unbounded, however
often the ticks wrap. -/
theorem never_drifts {config : Config} {timer : ClockTimer} {clock : SysClock}
    (hclock : SysClock.ofConfig config timer = .ok clock) (htimer : timer.device = {})
    (hinterval : config.sysclockPeriodMs.toNat ≤ 2147483646) (wakes : Wakes) (events : List Event)
    {number : Nat}
    (huncancelled : ({ clock, wakes } : RunningClock).uncancelled number events = true)
    {made : TimeoutEntry}
    (hmade : (tally (({ clock, wakes } : RunningClock).run events).history).grants[number]? =
      some made)
    (hperiodic : made.periodic = true) (hpos : 1 ≤ made.period.toNat)
    (hle : made.period.toNat ≤ 2147483648) :
    let interval := config.sysclockPeriodMs.toNat
    let history := (({ clock, wakes } : RunningClock).run events).history
    let interrupts := interruptsOf config.sysclockPeriodMs history
    let fires := firesOf config.sysclockPeriodMs number history
    ∃ start, grantTime config.sysclockPeriodMs number history = some start ∧
      (interval ≤ made.period.toNat → ∀ k, 1 ≤ k →
        fires[k - 1]? = interrupts.find? (start + k * made.period.toNat ≤ ·)) ∧
      (made.period.toNat < interval → fires = interrupts.filter (start < ·)) := by
  intro interval history interrupts fires
  have hkept := kept_start hclock htimer wakes
  have hnames : clock.state.schedule.ComparesNames := by
    obtain ⟨armed, schedule, -, hschedule, rfl⟩ := SysClock.ofConfig_eq_ok hclock
    exact (Schedule.lockstep_of_ofCapacity hschedule).1.equal
  have hnew : Steady config.sysclockPeriodMs number { clock, wakes } := nofun
  obtain ⟨start, deadline, hbeat⟩ :=
    hnew.run hkept hnames hinterval events huncancelled made hmade ⟨hperiodic, hpos, hle⟩
  have hinterrupts : interrupts = interruptTimes interval (tally history).fired :=
    interruptsOf_eq (hkept.run events).lawful
  rw [hinterrupts]
  exact ⟨start, hbeat.granted, fun hlong => (hbeat.beat.steady hlong).2, hbeat.beat.pressed⟩

/-- A period of 25 against interrupts every 10: a timeout that is set after the first interrupt
fires at the fourth, the sixth and the ninth. -/
theorem never_drifts_two_and_a_half :
    let interrupt : List Event :=
      [.fire 0, .raise 0, .timer, .timer, .timer, .timer, .raise 0, .raise 0]
    let events := .start :: interrupt ++
      [.send 7 (Request.toMessage (.setTimeout true 25 0)), .server, .server, .server] ++
      (List.replicate 8 interrupt).flatten
    let made : TimeoutEntry := ⟨⟨1, by decide⟩, 7, true, 25, 35⟩
    ∃ clock, SysClock.ofConfig { sysclockMaxEntries := 1 } {} = .ok clock ∧
      let c : RunningClock := { clock, wakes := .ofCount 1 }
      c.uncancelled 0 events = true ∧ (tally (c.run events).history).grants[0]? = some made ∧
        let fires := firesOf 10 0 (c.run events).history
        grantTime 10 0 (c.run events).history = some 10 ∧ fires[0]? = some 40 ∧
          fires[1]? = some 60 ∧ fires[2]? = some 90 ∧ fires[3]? = none := by
  intro interrupt events made
  obtain ⟨clock, hclock⟩ :
      ∃ clock, SysClock.ofConfig { sysclockMaxEntries := 1 } {} = .ok clock := ⟨_, rfl⟩
  refine ⟨clock, hclock, ?_⟩
  intro c
  have hevaluated : c.uncancelled 0 events = true ∧
      (tally (c.run events).history).grants[0]? = some made ∧
      grantTime 10 0 (c.run events).history = some 10 ∧
      interruptsOf 10 (c.run events).history = [10, 20, 30, 40, 50, 60, 70, 80, 90] := by
    obtain rfl := Except.ok.inj hclock
    decide +kernel
  obtain ⟨huncancelled, hmade, hstart, hinterrupts⟩ := hevaluated
  obtain ⟨start, hgrant, hlong, -⟩ := never_drifts hclock rfl (by decide) (.ofCount 1) events
    huncancelled hmade rfl (by decide) (by decide)
  obtain rfl := Option.some.inj (hgrant.symm.trans hstart)
  have hfires : ∀ k, 1 ≤ k → (firesOf 10 0 (c.run events).history)[k - 1]? =
      [10, 20, 30, 40, 50, 60, 70, 80, 90].find? (10 + k * 25 ≤ ·) := fun k hk =>
    (hlong (by decide) k hk).trans (congrArg (List.find? _) hinterrupts)
  exact ⟨huncancelled, hmade, hstart, hfires 1 (by decide), hfires 2 (by decide),
    hfires 3 (by decide), hfires 4 (by decide)⟩

end RunningClock

end Osal
