import Osal.Proofs.Semaphore.NoLostWakeup

/-!
# The unit of a semaphore

A semaphore has one unit, which is there while it is available. The history of a crowd tells in order
which takes ended and how, and which gives took effect and whether they found the unit there. Each deed
does to the unit what `Moves` says, so that a history is a ledger of the unit. `unit_conserved`: the
takes that succeeded are as many as the units that were put in, less the one that is left.
-/

namespace Osal

namespace Crowd

/-- What the accounts of a semaphore tell. -/
inductive Deed where
  /-- A take of the thread ended. -/
  | took (thread : NotificationId) (outcome : Take.Outcome)
  /-- A give took effect; `found` says whether the semaphore was available before. -/
  | gave (found : Bool)

/-- A step that ends a take is told. -/
def ended (k : NotificationId) : Take.Turn → Option Deed
  | .goto _ => none
  | .done outcome => some (.took k outcome)

theorem ended_eq_some_iff {j k : NotificationId} {turn : Take.Turn} {outcome : Take.Outcome} :
    ended j turn = some (.took k outcome) ↔ j = k ∧ turn = .done outcome := by
  cases turn <;> simp [ended]

def deed? (c : Crowd) : Event → Option Deed
  | .step k =>
    match c.threads k with
    | none => none
    | some (timeoutMs, p) =>
      match ({ timeoutMs, wait := k } : Take).step (c.semaphore, c.wakes) p with
      | none => none
      | some next => ended k next.2
  | .answer k result =>
    match c.threads k with
    | none => none
    | some (timeoutMs, p) =>
      if p.isInside then
        ended k (({ timeoutMs, wait := k } : Take).answered c.semaphore c.wakes result p).2
      else none
  | .give => if c.semaphore.locked then none else some (.gave c.semaphore.available)
  | .take .. | .signal .. => none

def history (c : Crowd) : List Event → List Deed
  | [] => []
  | event :: events => (c.deed? event).toList ++ (c.handle event).history events

def Deed.isWin : Deed → Bool
  | .took _ (.ok ()) => true
  | _ => false

def Deed.isRefill : Deed → Bool
  | .gave false => true
  | _ => false

def Deed.isGive : Deed → Bool
  | .gave _ => true
  | .took .. => false

/-- How many units there are. -/
def units (available : Bool) : Nat := if available then 1 else 0

/-- What a deed, or an event that is not told, does to the unit. -/
inductive Moves : Option Deed → Bool → Bool → Prop where
  | idle (unit : Bool) : Moves none unit unit
  | win (k : NotificationId) : Moves (some (.took k (.ok ()))) true false
  | refusal (k : NotificationId) (stop : Stop) (unit : Bool) :
    Moves (some (.took k (.error stop))) unit unit
  | give (found : Bool) : Moves (some (.gave found)) found true

/-- Deeds that lead from one state of the unit to another. -/
def Ledger : Bool → List Deed → Bool → Prop
  | unit, [], last => unit = last
  | unit, deed :: deeds, last => ∃ next, Moves (some deed) unit next ∧ Ledger next deeds last

/-- Everything that an event can do to a crowd, with what is told of it. -/
inductive Does (c : Crowd) : Event → Option Deed → Crowd → Prop where
  | nothing (event : Event) : Does c event none c
  | enter {k : NotificationId} (timeoutMs : Int32) (hk : c.threads k = none)
      (hlt : k < c.wakes.size) : Does c (.take k timeoutMs) none
        { c with threads := Function.update c.threads k (some (timeoutMs, .entering)) }
  | step {k : NotificationId} {timeoutMs : Int32} {p : Take.Point}
      {next : (Semaphore × Wakes) × Take.Turn} (hk : c.threads k = some (timeoutMs, p))
      (hstep : ({ timeoutMs, wait := k } : Take).step (c.semaphore, c.wakes) p = some next) :
      Does c (.step k) (ended k next.2) (c.advance k timeoutMs next)
  | answer {k : NotificationId} {timeoutMs : Int32} {p : Take.Point}
      (result : CallResult NotificationId) {next : (Semaphore × Wakes) × Take.Turn}
      (hk : c.threads k = some (timeoutMs, p)) (hinside : p.isInside = true)
      (hnext : ({ timeoutMs, wait := k } : Take).answered c.semaphore c.wakes result p = next) :
      Does c (.answer k result) (ended k next.2) (c.advance k timeoutMs next)
  | give (hunlocked : c.semaphore.locked = false) :
      Does c .give (some (.gave c.semaphore.available))
        { c with
          semaphore := { c.semaphore with available := true }
          wakes := c.wakes.signalAll c.semaphore.parked .released }
  | signal (k : NotificationId) (wake : Wakeup) :
      Does c (.signal k wake) none { c with wakes := (c.wakes.signal k wake).2 }

theorem does_handle (c : Crowd) (event : Event) : Does c event (c.deed? event) (c.handle event) := by
  cases event with
  | take k timeoutMs =>
    cases hk : c.threads k with
    | some inside =>
      simp only [handle, deed?, hk]
      exact .nothing _
    | none =>
      by_cases hlt : k < c.wakes.size
      · simp only [handle, deed?, hk, if_pos hlt]
        exact .enter timeoutMs hk hlt
      · simp only [handle, deed?, hk, if_neg hlt]
        exact .nothing _
  | step k =>
    cases hk : c.threads k with
    | none =>
      simp only [handle, deed?, hk]
      exact .nothing _
    | some inside =>
      obtain ⟨timeoutMs, p⟩ := inside
      cases hstep : ({ timeoutMs, wait := k } : Take).step (c.semaphore, c.wakes) p with
      | none =>
        simp only [handle, deed?, hk, hstep]
        exact .nothing _
      | some next =>
        simp only [handle, deed?, hk, hstep]
        exact .step hk hstep
  | answer k result =>
    cases hk : c.threads k with
    | none =>
      simp only [handle, deed?, hk]
      exact .nothing _
    | some inside =>
      obtain ⟨timeoutMs, p⟩ := inside
      by_cases hinside : p.isInside = true
      · simp only [handle, deed?, hk, if_pos hinside]
        exact .answer result hk hinside rfl
      · simp only [handle, deed?, hk, if_neg hinside]
        exact .nothing _
  | give =>
    cases hlocked : c.semaphore.locked with
    | true =>
      simp only [handle, deed?, hlocked, Semaphore.give_of_locked _ hlocked, if_true]
      exact .nothing _
    | false =>
      have hdeed : c.deed? .give = some (.gave c.semaphore.available) := by
        rw [deed?, if_neg (Bool.not_eq_true _ ▸ hlocked)]
      rw [hdeed, handle, Semaphore.give_of_unlocked _ hlocked]
      exact .give hlocked
  | signal k wake => exact .signal k wake

/-! ## Ledgers -/

variable {unit middle last : Bool} {deeds before after : List Deed}

theorem ledger_append :
    Ledger unit (before ++ after) last ↔
      ∃ middle, Ledger unit before middle ∧ Ledger middle after last := by
  induction before generalizing unit with
  | nil => exact ⟨fun h => ⟨unit, rfl, h⟩, fun ⟨_, hunit, h⟩ => hunit ▸ h⟩
  | cons deed before ih =>
    constructor
    · rintro ⟨next, hmoves, h⟩
      obtain ⟨middle, hbefore, hafter⟩ := ih.1 h
      exact ⟨middle, ⟨next, hmoves, hbefore⟩, hafter⟩
    · rintro ⟨middle, ⟨next, hmoves, hbefore⟩, hafter⟩
      exact ⟨next, hmoves, ih.2 ⟨middle, hbefore, hafter⟩⟩

/-- What went out and is left is what was there and came in. -/
theorem Ledger.balance (h : Ledger unit deeds last) :
    deeds.countP Deed.isWin + units last = units unit + deeds.countP Deed.isRefill := by
  induction deeds generalizing unit with
  | nil =>
    obtain rfl : unit = last := h
    rw [List.countP_nil, List.countP_nil, Nat.zero_add, Nat.add_zero]
  | cons deed deeds ih =>
    obtain ⟨next, hmoves, h⟩ := h
    have hrest := ih h
    rw [List.countP_cons, List.countP_cons]
    cases hmoves with
    | win => simp [Deed.isWin, Deed.isRefill, units] at hrest ⊢; omega
    | refusal => simp [Deed.isWin, Deed.isRefill] at hrest ⊢; omega
    | give => cases unit <;> simp [Deed.isWin, Deed.isRefill, units] at hrest ⊢ <;> omega

/-- Between two takes that succeed the unit is put in. -/
theorem Ledger.refill_between {k l : NotificationId}
    (h : Ledger unit (.took k (.ok ()) :: deeds ++ [.took l (.ok ())]) last) :
    .gave false ∈ deeds := by
  obtain ⟨next, hmoves, h⟩ := h
  cases hmoves
  obtain ⟨middle, hdeeds, ⟨_, hmoves, -⟩⟩ := ledger_append.1 h
  cases hmoves
  have hbalance := hdeeds.balance
  have hpos : 0 < deeds.countP Deed.isRefill := by
    simp only [units, if_true, Bool.false_eq_true, if_false] at hbalance
    omega
  obtain ⟨deed, hdeed, hrefill⟩ := List.countP_pos_iff.1 hpos
  cases deed with
  | took => cases hrefill
  | gave found =>
    cases found with
    | true => cases hrefill
    | false => exact hdeed

theorem Ledger.wins_le (h : Ledger unit deeds last) :
    deeds.countP Deed.isWin ≤ units unit + deeds.countP Deed.isGive := by
  have hbalance := h.balance
  have hle : deeds.countP Deed.isRefill ≤ deeds.countP Deed.isGive := by
    refine List.countP_mono_left fun deed _ hrefill => ?_
    cases deed with
    | took => cases hrefill
    | gave => rfl
  omega

/-! ## A crowd keeps a ledger -/

variable {c : Crowd} {k : NotificationId}

theorem moves_of_turns (k : NotificationId) {turn : Take.Turn} (h : Take.Turns unit last turn) :
    Moves (ended k turn) unit last := by
  cases h with
  | goes => exact .idle _
  | wins => exact .win k
  | stops => exact .refusal k _ _

theorem moves_handle (c : Crowd) (event : Event) :
    Moves (c.deed? event) c.semaphore.available (c.handle event).semaphore.available := by
  have hdoes := does_handle c event
  generalize c.deed? event = deed, c.handle event = c' at hdoes ⊢
  cases hdoes with
  | nothing => exact .idle _
  | enter => exact .idle _
  | step hk hstep => exact moves_of_turns _ (Take.turns_step hstep)
  | answer result hk hinside hnext =>
    rw [← hnext]
    exact moves_of_turns _ (Take.turns_answered hinside ..)
  | give => exact .give _
  | signal => exact .idle _

theorem Moves.ledger {deed? : Option Deed} (h : Moves deed? unit last) :
    Ledger unit deed?.toList last := by
  cases deed? with
  | none =>
    cases h
    rfl
  | some deed => exact ⟨last, h, rfl⟩

theorem ledger_run (c : Crowd) (events : List Event) :
    Ledger c.semaphore.available (c.history events) (c.run events).semaphore.available := by
  induction events generalizing c with
  | nil => exact rfl
  | cons event events ih =>
    exact ledger_append.2 ⟨_, (moves_handle c event).ledger, ih (c.handle event)⟩

theorem ended_of_advance {j : NotificationId} {timeoutMs : Int32}
    {next : (Semaphore × Wakes) × Take.Turn} (hin : c.threads k ≠ none)
    (hout : (c.advance j timeoutMs next).threads k = none) :
    ∃ outcome, ended j next.2 = some (.took k outcome) := by
  by_cases hkj : k = j
  · subst hkj
    simp only [advance, Function.update_self] at hout
    cases hturn : next.2 with
    | goto p =>
      rw [hturn] at hout
      cases hout
    | done outcome => exact ⟨outcome, rfl⟩
  · simp only [advance, Function.update_of_ne hkj] at hout
    exact absurd hout hin

theorem took_of_leave (event : Event) (hin : c.threads k ≠ none)
    (hout : (c.handle event).threads k = none) :
    ∃ outcome, c.deed? event = some (.took k outcome) := by
  have hdoes := does_handle c event
  generalize c.deed? event = deed, c.handle event = c' at hdoes hout ⊢
  cases hdoes with
  | nothing => exact absurd hout hin
  | @enter j timeoutMs hj hlt =>
    have hkj : k ≠ j := fun heq => hin (heq ▸ hj)
    simp only [Function.update_of_ne hkj] at hout
    exact absurd hout hin
  | step hj hstep => exact ended_of_advance hin hout
  | answer result hj hinside hnext => exact ended_of_advance hin hout
  | give => exact absurd hout hin
  | signal => exact absurd hout hin

theorem leave_of_ended {j : NotificationId} {timeoutMs : Int32} {p : Take.Point}
    {next : (Semaphore × Wakes) × Take.Turn} {outcome : Take.Outcome}
    (hj : c.threads j = some (timeoutMs, p)) (hended : ended j next.2 = some (.took k outcome)) :
    c.threads k ≠ none ∧ (c.advance j timeoutMs next).threads k = none := by
  obtain ⟨rfl, hturn⟩ := ended_eq_some_iff.1 hended
  refine ⟨?_, ?_⟩
  · rw [hj]
    exact Option.some_ne_none _
  · simp only [advance, hturn, Function.update_self]
    rfl

theorem leave_of_took {event : Event} {outcome : Take.Outcome}
    (htook : c.deed? event = some (.took k outcome)) :
    c.threads k ≠ none ∧ (c.handle event).threads k = none := by
  have hdoes := does_handle c event
  rw [htook] at hdoes
  generalize hdeed : some (Deed.took k outcome) = deed, c.handle event = c' at hdoes ⊢
  cases hdoes with
  | nothing => cases hdeed
  | enter => cases hdeed
  | step hj hstep => exact leave_of_ended hj hdeed.symm
  | answer result hj hinside hnext => exact leave_of_ended hj hdeed.symm
  | give => cases hdeed
  | signal => cases hdeed

/-! ## The unit is conserved -/

/-- What the accounts of a crowd come to. -/
structure Conserved (initial : Bool) (deeds : List Deed) (c : Crowd) : Prop where
  balance : deeds.countP Deed.isWin + units c.semaphore.available =
    units initial + deeds.countP Deed.isRefill
  /-- Between two takes that succeed there is a give that puts the unit in. -/
  refill_between : ∀ before between after k l,
    deeds = before ++ (.took k (.ok ()) :: between ++ [.took l (.ok ())]) ++ after →
      .gave false ∈ between
  wins_le : deeds.countP Deed.isWin ≤ units initial + deeds.countP Deed.isGive
  /-- A take is told when the call of its thread ends. -/
  told : ∀ event k outcome, c.deed? event = some (.took k outcome) →
    c.threads k ≠ none ∧ (c.handle event).threads k = none
  /-- The unit goes with a take that succeeds, and in no other event. -/
  won : ∀ event, c.semaphore.available = true →
    (c.handle event).semaphore.available = false → ∃ k, c.deed? event = some (.took k (.ok ()))
  /-- A take that ends takes the unit or is refused and leaves it. -/
  leaves : ∀ event k, c.threads k ≠ none → (c.handle event).threads k = none →
    (c.deed? event = some (.took k (.ok ())) ∧ c.semaphore.available = true ∧
      (c.handle event).semaphore.available = false) ∨
    ∃ stop, c.deed? event = some (.took k (.error stop)) ∧
      (c.handle event).semaphore.available = c.semaphore.available

theorem won_of_handle (c : Crowd) (event : Event) (hbefore : c.semaphore.available = true)
    (hafter : (c.handle event).semaphore.available = false) :
    ∃ k, c.deed? event = some (.took k (.ok ())) := by
  have hmoves := moves_handle c event
  rw [hbefore, hafter] at hmoves
  generalize c.deed? event = deed at hmoves
  cases hmoves with
  | win k => exact ⟨k, rfl⟩

theorem leave_cases (event : Event) (hin : c.threads k ≠ none)
    (hout : (c.handle event).threads k = none) :
    (c.deed? event = some (.took k (.ok ())) ∧ c.semaphore.available = true ∧
      (c.handle event).semaphore.available = false) ∨
    ∃ stop, c.deed? event = some (.took k (.error stop)) ∧
      (c.handle event).semaphore.available = c.semaphore.available := by
  obtain ⟨outcome, htook⟩ := took_of_leave event hin hout
  have hmoves := moves_handle c event
  rw [htook] at hmoves ⊢
  generalize c.semaphore.available = unit, (c.handle event).semaphore.available = last at hmoves ⊢
  cases hmoves with
  | win => exact Or.inl ⟨rfl, rfl, rfl⟩
  | refusal _ stop => exact Or.inr ⟨stop, rfl, rfl⟩

/-- Whatever threads take and give and however their steps come, the takes that succeed are as many
as the units that were put in, less the one that is left. -/
theorem unit_conserved (threads : Nat) (initial : Bool) (maxWaiters : Nat)
    (clock : Option ClockClient) (events : List Event) :
    let start := ofSize threads initial maxWaiters clock
    Conserved initial (start.history events) (start.run events) := by
  intro start
  have hledger : Ledger initial (start.history events) (start.run events).semaphore.available :=
    ledger_run start events
  refine
    { balance := hledger.balance
      refill_between := fun before between after k l hdeeds => ?_
      wins_le := hledger.wins_le
      told := fun _ _ _ => leave_of_took
      won := won_of_handle _
      leaves := fun event k => leave_cases event }
  rw [hdeeds] at hledger
  obtain ⟨_, hpart, -⟩ := ledger_append.1 hledger
  obtain ⟨_, -, hpart⟩ := ledger_append.1 hpart
  exact hpart.refill_between

end Crowd

end Osal
