import Mathlib.Logic.Function.Basic
import Osal.Proofs.Clock.Loops
import Osal.Proofs.Histories

/-!
# A clock that runs

A running clock is the service, the clients that send it messages, and the threads that raise its
interrupts. Each of them goes on by one step at a time, in any order: the timer loop may be between the
store of the tick and the fire while the server reads the tick, and any number of calls may be on their
way.

The history tells the steps that matter; a tally sums them up. Timeouts are numbered as they are
granted, since names may come back. `Law` is what is to be said of each deed.
-/

namespace Osal

namespace RunningClock

/-- What the history of a running clock tells. -/
inductive Deed where
  | sent (caller : Nat) (badge : Badge) (m : ClockMessage)
  /-- The server made its reply to a call, and granted a timeout or none. -/
  | handled (call : Call NotificationId) (reply : Reply) (granted : Option TimeoutEntry)
  | returned (caller : Nat) (result : CallResult NotificationId)
  /-- The timer loop stored the tick. -/
  | stored
  /-- The timer loop fired, given the numbers and entries of the timeouts that were pending: which
  ones it looked at, and which ones it found due. -/
  | fired (now : Tick) (pending : List (Nat × TimeoutEntry)) (seen due : List Nat)
  | acknowledged
  /-- A thread began to raise an interrupt. -/
  | begun (raiser : Nat)
  | raised (raiser : Nat)
  /-- The thread took an acknowledgement. -/
  | heard (raiser : Nat)
  | ended (raiser : Nat) (result : Except PlatformError Unit)

/-! ## What a history comes to -/

structure Tally where
  sends : List (Badge × ClockMessage) := []
  handled : Nat := 0
  /-- The timeouts in the order in which they were granted, as they were then. -/
  grants : List TimeoutEntry := []
  stored : Nat := 0
  fired : Nat := 0
  acknowledged : Nat := 0
  /-- The tick of the last fire. -/
  tick : Tick := 0
  begun : Nat := 0
  raised : Nat := 0
  heard : Nat := 0
  ended : Nat := 0

def tally : List Deed → Tally
  | [] => {}
  | .sent _ badge m :: past => { tally past with sends := (tally past).sends ++ [(badge, m)] }
  | .handled _ _ granted :: past =>
    { tally past with
      handled := (tally past).handled + 1, grants := (tally past).grants ++ granted.toList }
  | .returned .. :: past => tally past
  | .stored :: past => { tally past with stored := (tally past).stored + 1 }
  | .fired now .. :: past => { tally past with fired := (tally past).fired + 1, tick := now }
  | .acknowledged :: past => { tally past with acknowledged := (tally past).acknowledged + 1 }
  | .begun _ :: past => { tally past with begun := (tally past).begun + 1 }
  | .raised _ :: past => { tally past with raised := (tally past).raised + 1 }
  | .heard _ :: past => { tally past with heard := (tally past).heard + 1 }
  | .ended .. :: past => { tally past with ended := (tally past).ended + 1 }

def tickAfter (period : Tick) (count : Nat) : Tick := .ofNat (period.toNat * count)

/-- How many ticks had been stored when the call of a caller was handled. -/
def countAt (caller : Nat) : List Deed → Option Nat
  | [] => none
  | .handled call _ _ :: past =>
    if call.caller = caller then some (tally past).stored else countAt caller past
  | _ :: past => countAt caller past

/-- One caller had returned when another one sent its message. -/
def ReturnedBefore (first second : Nat) (history : List Deed) : Prop :=
  Occurred (fun past deed => (∃ badge m, deed = .sent second badge m) ∧
    ∃ result, .returned first result ∈ past) history

/-- No thread begins to raise an interrupt before the last one has ended. -/
def Sequential (history : List Deed) : Prop :=
  Lawful (fun past deed => ∀ raiser, deed = .begun raiser → (tally past).begun = (tally past).ended)
    history

/-- A fire looks at a timeout just if that was granted before. -/
def LooksAt (number : Nat) (past : List Deed) (deed : Deed) : Prop :=
  ∀ now pending seen due, deed = .fired now pending seen due →
    (number ∈ seen ↔ number < (tally past).grants.length)

/-- A timeout with a number is pending as it was granted. All fires since then have looked at it, and
none before. -/
def IsPending (entry : Nat × TimeoutEntry) (history : List Deed) : Prop :=
  (∃ made, (tally history).grants[entry.1]? = some made ∧ made.Continues entry.2) ∧
    Lawful (LooksAt entry.1) history

/-- The reply to a message with a badge, and the timeout that is granted. -/
def Answer (period : Tick) (t : Tally) (badge : Badge) (m : ClockMessage) (reply : Reply)
    (granted : Option TimeoutEntry) : Prop :=
  match Request.decode m with
  | .error _ => reply = .failed .badRequest ∧ granted = none
  | .ok .getTime => reply = .time (tickAfter period t.stored) ∧ granted = none
  | .ok (.cancelTimeout _) => (reply = .cancelled ∨ reply = .failed .failed) ∧ granted = none
  | .ok (.setTimeout periodic ms _) =>
    reply = .failed .failed ∧ granted = none ∨
    ∃ id, reply = .scheduled id t.tick ∧
      granted = some { id, requester := badge, periodic, period := ms, nextFire := t.tick + ms }

/-- What is to be said of a deed of a clock with a period. -/
def Law (period : Tick) (past : List Deed) : Deed → Prop
  | .sent caller _ _ => caller = (tally past).sends.length
  | .handled call reply granted =>
    call.caller = (tally past).handled ∧
      (tally past).sends[call.caller]? = some (call.badge, call.message) ∧
      Answer period (tally past) call.badge call.message reply granted
  | .returned caller result => ∃ call reply granted,
    .handled call reply granted ∈ past ∧ call.caller = caller ∧ result = .ok reply.toMessage
  | .fired now pending seen due =>
    now = tickAfter period (tally past).stored ∧ (tally past).stored = (tally past).fired + 1 ∧
      seen = pending.map (·.1) ∧ seen.Nodup ∧
      due = (pending.filter (·.2.isDue now)).map (·.1) ∧ ∀ entry ∈ pending, IsPending entry past
  | .ended _ (.ok ()) => Sequential past →
    (tally past).stored = (tally past).ended + 1 ∧ (tally past).fired = (tally past).ended + 1 ∧
      (tally past).acknowledged = (tally past).ended + 1
  | .stored | .acknowledged | .begun _ | .raised _ | .heard _ | .ended _ (.error _) => True

end RunningClock

/-- A clock, its clients and the threads that raise its interrupts. -/
structure RunningClock where
  clock : SysClock
  wakes : Wakes
  /-- Where the threads stand that raise interrupts. -/
  raisers : Nat → Option ManualTimer.FirePoint := fun _ => none
  /-- The number of the timeout that was put last into a slot of the pool. -/
  numbers : Nat → Nat := fun _ => 0
  history : List RunningClock.Deed := []

namespace RunningClock

/-- What can happen. An event that is impossible at its moment changes nothing. -/
inductive Event where
  | start
  | send (badge : Badge) (m : ClockMessage)
  /-- A caller that has its result returns. -/
  | collect (caller : Nat)
  | timer
  | server
  | fire (raiser : Nat)
  | raise (raiser : Nat)
  | dropHandle
  /-- Others leave the notifications as they are now. -/
  | leave (wakes : Wakes)

def numbered (s : Schedule) (numbers : Nat → Nat) : List (Nat × TimeoutEntry) :=
  s.entries.toList.map fun entry => (numbers entry.1.index, entry.2)

def pending (c : RunningClock) : List (Nat × TimeoutEntry) :=
  numbered c.clock.state.schedule c.numbers

def grantedBy (s : Schedule) : Reply → Option (Handle × TimeoutEntry)
  | .scheduled .. => s.entries.toList.getLast?
  | _ => none

/-- The clock after a server step, and what it tells. -/
def serve (c : RunningClock) (clock : SysClock) : RunningClock :=
  match c.clock.serverPhase, clock.serverPhase with
  | .handling k, .replying _ reply =>
    match c.clock.endpoint.call? k with
    | some call =>
      let granted := grantedBy clock.state.schedule reply
      { c with
        clock
        numbers := granted.elim c.numbers fun entry =>
          Function.update c.numbers entry.1.index (tally c.history).grants.length
        history := .handled call reply (granted.map (·.2)) :: c.history }
    | none => { c with clock }
  | _, _ => { c with clock }

def timerNews (c : RunningClock) (clock : SysClock) : List Deed :=
  match c.clock.timerPhase, clock.timerPhase with
  | .interrupted, .ticked => [.stored]
  | .ticked, .fired =>
    let s := c.clock.state.schedule
    let number := fun slot : Handle => c.numbers slot.index
    [.fired c.clock.now c.pending ((s.seenSlots c.wakes c.clock.now).map number)
      ((s.firedSlots c.wakes c.clock.now).map number)]
  | .fired, .waiting => [.acknowledged]
  | _, _ => []

def raiserNews (raiser : Nat) :
    ManualTimer.FirePoint → Next ManualTimer.FirePoint (Except PlatformError Unit) → Deed
  | _, .done result => .ended raiser result
  | .raise _, .goto _ => .raised raiser
  | .await _, .goto _ => .heard raiser

def place : Next ManualTimer.FirePoint (Except PlatformError Unit) → Option ManualTimer.FirePoint
  | .goto p => some p
  | .done _ => none

def withDevice (clock : SysClock) (device : ManualTimer) : SysClock :=
  { clock with timer := { clock.timer with device } }

def handle (c : RunningClock) : Event → RunningClock
  | .start =>
    match c.clock.start with
    | .ok clock => { c with clock }
    | .error _ => c
  | .send badge m =>
    let next := c.clock.send badge m
    { c with clock := next.2, history := .sent next.1 badge m :: c.history }
  | .collect caller =>
    match c.clock.endpoint.result? caller with
    | some result => { c with history := .returned caller result :: c.history }
    | none => c
  | .timer =>
    match c.clock.timerStep c.wakes with
    | some (clock, wakes) => { c with clock, wakes, history := c.timerNews clock ++ c.history }
    | none => c
  | .server =>
    match c.clock.serverStep with
    | some clock => c.serve clock
    | none => c
  | .fire raiser =>
    match c.raisers raiser with
    | none =>
      { c with
        raisers := Function.update c.raisers raiser (some (.raise 1))
        history := .begun raiser :: c.history }
    | some _ => c
  | .raise raiser =>
    match c.raisers raiser with
    | some p =>
      match ManualTimer.fireStep c.clock.timer.device p with
      | some (device, next) =>
        { c with
          clock := withDevice c.clock device
          raisers := Function.update c.raisers raiser (place next)
          history := raiserNews raiser p next :: c.history }
      | none => c
    | none => c
  | .dropHandle => { c with clock := withDevice c.clock c.clock.timer.device.dropHandle }
  | .leave wakes => { c with wakes }

def run (c : RunningClock) (events : List Event) : RunningClock := events.foldl handle c

variable {period : Tick} {history past later : List Deed} {deed : Deed} {call : Call NotificationId}
  {reply : Reply} {granted : Option TimeoutEntry} {caller : Nat}

/-! ## What follows from the laws -/

theorem toNat_tickAfter (period : Tick) (count : Nat) :
    (tickAfter period count).toNat = period.toNat * count % 4294967296 := by
  rw [tickAfter, UInt32.toNat_ofNat']

theorem tickAfter_succ (period : Tick) (count : Nat) :
    tickAfter period (count + 1) = tickAfter period count + period := by
  apply UInt32.toNat_inj.1
  rw [UInt32.toNat_add, toNat_tickAfter, toNat_tickAfter, Nat.mul_succ]
  omega

theorem tally_mono (later past : List Deed) :
    (tally past).sends <+: (tally (later ++ past)).sends ∧
      (tally past).grants <+: (tally (later ++ past)).grants ∧
      (tally past).handled ≤ (tally (later ++ past)).handled ∧
      (tally past).stored ≤ (tally (later ++ past)).stored := by
  induction later with
  | nil => exact ⟨List.prefix_rfl, List.prefix_rfl, Nat.le_refl _, Nat.le_refl _⟩
  | cons deed later ih =>
    obtain ⟨hsends, hgrants, hhandled, hstored⟩ := ih
    cases deed with
    | sent => exact ⟨hsends.trans (List.prefix_append ..), hgrants, hhandled, hstored⟩
    | handled =>
      exact ⟨hsends, hgrants.trans (List.prefix_append ..), Nat.le_succ_of_le hhandled, hstored⟩
    | stored => exact ⟨hsends, hgrants, hhandled, Nat.le_succ_of_le hstored⟩
    | returned | fired | acknowledged | begun | raised | heard | ended =>
      exact ⟨hsends, hgrants, hhandled, hstored⟩

theorem handled_lt_of_mem (h : Lawful (Law period) history)
    (hmem : .handled call reply granted ∈ history) : call.caller < (tally history).handled := by
  obtain ⟨later, past, rfl⟩ := List.append_of_mem hmem
  obtain ⟨hcaller, -, -⟩ := h later _ past rfl
  have hmono := (tally_mono later (.handled call reply granted :: past)).2.2.1
  rw [hcaller]
  exact hmono

theorem handled_le_sends (h : Lawful (Law period) history) :
    (tally history).handled ≤ (tally history).sends.length := by
  induction history with
  | nil => exact Nat.le_refl _
  | cons deed past ih =>
    obtain ⟨hlaw, hpast⟩ := lawful_cons.1 h
    have hle := ih hpast
    cases deed with
    | sent => exact Nat.le_trans hle ((List.prefix_append _ _).length_le)
    | handled call =>
      obtain ⟨hcaller, hsent, -⟩ := hlaw
      have hlt := (List.getElem?_eq_some_iff.1 hsent).1
      rw [hcaller] at hlt
      exact hlt
    | returned | stored | fired | acknowledged | begun | raised | heard | ended => exact hle

theorem countAt_le {count : Nat} (h : countAt caller history = some count) :
    count ≤ (tally history).stored := by
  induction history with
  | nil => cases h
  | cons deed past ih =>
    cases deed with
    | handled call =>
      rw [countAt] at h
      split at h
      · rw [← Option.some.inj h]
        exact Nat.le_refl _
      · exact ih h
    | stored => exact Nat.le_succ_of_le (ih h)
    | sent | returned | fired | acknowledged | begun | raised | heard | ended => exact ih h

theorem exists_handled_of_countAt {count : Nat} (h : countAt caller history = some count) :
    ∃ call reply granted, .handled call reply granted ∈ history ∧ call.caller = caller := by
  induction history with
  | nil => cases h
  | cons deed past ih =>
    have hrest : countAt caller past = some count →
        ∃ call reply granted, .handled call reply granted ∈ deed :: past ∧ call.caller = caller := by
      intro hpast
      obtain ⟨call, reply, granted, hmem, hcaller⟩ := ih hpast
      exact ⟨call, reply, granted, List.mem_cons_of_mem _ hmem, hcaller⟩
    cases deed with
    | handled call reply granted =>
      rw [countAt] at h
      split at h
      · exact ⟨call, reply, granted, List.mem_cons_self, ‹_›⟩
      · exact hrest h
    | sent | returned | stored | fired | acknowledged | begun | raised | heard | ended =>
      exact hrest h

theorem countAt_of_handled
    (h : Lawful (Law period) (later ++ .handled call reply granted :: past)) :
    countAt call.caller (later ++ .handled call reply granted :: past) =
      some (tally past).stored := by
  induction later with
  | nil => exact if_pos rfl
  | cons deed later ih =>
    rw [List.cons_append] at h ⊢
    obtain ⟨hlaw, hpast⟩ := lawful_cons.1 h
    have hcount := ih hpast
    cases deed with
    | handled other =>
      have hlt := handled_lt_of_mem hpast (List.mem_append_right _ List.mem_cons_self)
      rw [countAt, if_neg, hcount]
      rw [hlaw.1]
      omega
    | sent | returned | stored | fired | acknowledged | begun | raised | heard | ended =>
      exact hcount

theorem exists_handled_of_returned {result : CallResult NotificationId}
    (h : Lawful (Law period) history) (hmem : .returned caller result ∈ history) :
    ∃ call reply granted, .handled call reply granted ∈ history ∧ call.caller = caller ∧
      result = .ok reply.toMessage := by
  obtain ⟨later, past, rfl⟩ := List.append_of_mem hmem
  obtain ⟨call, reply, granted, hhandled, hcaller, hresult⟩ := h later _ past rfl
  exact ⟨call, reply, granted, List.mem_append_right _ (List.mem_cons_of_mem _ hhandled), hcaller,
    hresult⟩

theorem handled_of_returnedBefore {first second : Nat} (h : Lawful (Law period) history)
    (hbefore : ReturnedBefore first second history) : first < (tally history).handled := by
  obtain ⟨later, deed, past, rfl, -, result, hreturned⟩ := hbefore
  obtain ⟨call, reply, granted, hmem, rfl, -⟩ := exists_handled_of_returned h
    (List.mem_append_right later (List.mem_cons_of_mem deed hreturned))
  exact handled_lt_of_mem h hmem

/-- A call that is sent after another one has returned does not read an earlier tick. -/
theorem countAt_le_countAt {first second count other : Nat} (h : Lawful (Law period) history)
    (hbefore : ReturnedBefore first second history) (hfirst : countAt first history = some count)
    (hsecond : countAt second history = some other) : count ≤ other := by
  induction history with
  | nil => cases hfirst
  | cons deed past ih =>
    obtain ⟨hlaw, hpast⟩ := lawful_cons.1 h
    rcases occurred_cons.1 hbefore with ⟨⟨badge, m, rfl⟩, -⟩ | hold
    · -- the call that is sent last is not handled yet
      obtain ⟨call, reply, granted, hmem, hcaller⟩ := exists_handled_of_countAt hsecond
      have hlt := handled_lt_of_mem hpast ((List.mem_cons.1 hmem).resolve_left nofun)
      have hle := handled_le_sends hpast
      have hsent : second = (tally past).sends.length := hlaw
      omega
    · cases deed with
      | handled call =>
        have hlt := handled_of_returnedBefore hpast hold
        have hne : call.caller ≠ first := by
          rw [hlaw.1]
          omega
        rw [countAt, if_neg hne] at hfirst
        rw [countAt] at hsecond
        split at hsecond
        · rw [← Option.some.inj hsecond]
          exact countAt_le hfirst
        · exact ih hpast hold hfirst hsecond
      | sent | returned | stored | fired | acknowledged | begun | raised | heard | ended =>
        exact ih hpast hold hfirst hsecond

/-- A caller that asks for the time reads the tick that was stored when its call was handled. -/
theorem exists_countAt_of_returned {result : CallResult NotificationId} {badge : Badge}
    {m : ClockMessage} (h : Lawful (Law period) history)
    (hreturned : .returned caller result ∈ history)
    (hsent : (tally history).sends[caller]? = some (badge, m))
    (hm : Request.decode m = .ok .getTime) :
    ∃ count, countAt caller history = some count ∧
      ClockClient.timeOf result = .ok (tickAfter period count) := by
  obtain ⟨call, reply, granted, hmem, rfl, rfl⟩ := exists_handled_of_returned h hreturned
  obtain ⟨later, past, rfl⟩ := List.append_of_mem hmem
  obtain ⟨-, hsend, hanswer⟩ := h later _ past rfl
  have hsends := (tally_mono later (.handled call reply granted :: past)).1
  have hsame := (getElem?_of_initial hsends hsend).symm.trans hsent
  obtain ⟨-, rfl⟩ := Prod.mk.inj (Option.some.inj hsame)
  rw [Answer, hm] at hanswer
  refine ⟨_, countAt_of_handled h, ?_⟩
  rw [hanswer.1, ClockClient.timeOf_time]

end RunningClock

end Osal
