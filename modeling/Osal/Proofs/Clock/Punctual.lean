import Osal.Clock.Service
import Osal.Proofs.Clock.Client
import Osal.Proofs.Clock.Schedule

/-!
# Timeouts that fire early

A clock serves messages and ticks, in any order. A timeout of `ms` milliseconds is early if it fires at
one of the first `count` ticks after it was granted, where `count` periods are less than `ms`.

The deadline is compared modulo two to the thirty-second, and anything that lies more than half the
range ahead reads as past. `punctual_iff`: no timeout of a length is ever early just if the length is
at most `2147483649` milliseconds more than the period of the clock. A longer one fires at the first
tick after it was granted, while requests of every length are accepted.

The timeout is followed by its slot in the pool, so that nothing has to be said about names.
-/

namespace Osal

/-- What a clock that runs does. A fire finds the notifications as others left them. -/
inductive ClockEvent where
  | serve (badge : Badge) (m : ClockMessage)
  | tick (wakes : Wakes)

namespace ClockEvent

def isTick : ClockEvent → Bool
  | .serve .. => false
  | .tick _ => true

def ticks (events : List ClockEvent) : Nat := events.countP isTick

end ClockEvent

namespace Schedule

/-- A visitor that also notes the slots of the timeouts that a visit counts. -/
def noteSlots (visit : Pool.Visitor Firing TimeoutEntry) :
    Pool.Visitor (Firing × List Handle) TimeoutEntry :=
  fun (f, slots) h e =>
    let (f', e', verdict) := visit f h e
    ((f', if f.fired < f'.fired then slots ++ [h] else slots), e', verdict)

def firedSlots (s : Schedule) (wakes : Wakes) (now : Tick) : List Handle :=
  (s.entries.sweep ({ fired := 0, caps := s.caps, wakes }, []) (noteSlots (fireEntry now))).1.2

end Schedule

namespace ClockState

/-- The clock after an event, if it ticks with a period. -/
def react (period : Tick) (s : ClockState) : ClockEvent → ClockState
  | .serve badge m => (s.serve badge m).2
  | .tick wakes => ((s.advance period).fireDue wakes).1

def run (period : Tick) (s : ClockState) (events : List ClockEvent) : ClockState :=
  events.foldl (react period) s

/-- Whether a timeout fires in a run before it is cancelled. -/
def firesIn (period : Tick) (slot : Handle) (s : ClockState) : List ClockEvent → Bool
  | [] => false
  | .serve badge m :: events =>
    (s.serve badge m).2.schedule.entries.isLive slot &&
      firesIn period slot (s.serve badge m).2 events
  | .tick wakes :: events =>
    ((s.advance period).schedule.firedSlots wakes (s.advance period).tick).contains slot ||
      firesIn period slot ((s.advance period).fireDue wakes).1 events

/-- A clock with a period never fires a timeout of a length early: whatever it did before, a timeout
that it grants on request does not fire while the ticks after that make up less than the length. -/
def Punctual (period ms : Tick) : Prop :=
  ∀ capacity schedule, Schedule.ofCapacity capacity = .ok schedule →
    ∀ (tick : Tick) (before : List ClockEvent) (badge : Badge) (m : ClockMessage) (periodic : Bool)
      (wake : NotificationId), (Request.ofMessage m).1 = .ok (.setTimeout periodic ms wake) →
    let s := ({ tick, schedule } : ClockState).run period before
    ∀ slot entries, s.schedule.entries.allocate = .ok (slot, entries) →
    ∀ id insertedAt, (s.serve badge m).1 = .scheduled id insertedAt →
    ∀ events, ClockEvent.ticks events * period.toNat < ms.toNat →
      firesIn period slot (s.serve badge m).2 events = false

end ClockState

/-! ## Ticks and deadlines -/

variable {tick now period ms : Tick} {count : Nat}

/-- Some ticks after a timeout was granted, and before it should fire, its deadline reads as reached
just if it is still more than half the range of ticks ahead. -/
theorem tickReached_of_lt (hnow : now.toNat = (tick.toNat + count * period.toNat) % 4294967296)
    (hlt : count * period.toNat < ms.toNat) :
    tickReached now (tick + ms) = decide (count * period.toNat + 2147483649 < ms.toNat) := by
  generalize count * period.toNat = passed at hnow hlt ⊢
  have htick := tick.toNat_lt
  have hms := ms.toNat_lt
  have hdiff : (now - (tick + ms)).toNat = 4294967296 - (ms.toNat - passed) := by
    rw [UInt32.toNat_sub, UInt32.toNat_add, hnow]
    omega
  apply decide_eq_decide.2
  rw [UInt32.lt_iff_toNat_lt, hdiff]
  show _ < 2147483647 ↔ _
  omega

theorem toNat_no_ticks (tick period : Tick) :
    tick.toNat = (tick.toNat + 0 * period.toNat) % 4294967296 := by
  have hlt := tick.toNat_lt
  omega

theorem ClockState.toNat_advance {s : ClockState}
    (hnow : s.tick.toNat = (tick.toNat + count * period.toNat) % 4294967296) :
    (s.advance period).tick.toNat = (tick.toNat + (count + 1) * period.toNat) % 4294967296 := by
  rw [advance, UInt32.toNat_add, hnow, Nat.add_mul, Nat.one_mul]
  omega

theorem TimeoutEntry.isDue_of_early {e : TimeoutEntry}
    (hnow : now.toNat = (tick.toNat + (count + 1) * period.toNat) % 4294967296)
    (he : e.nextFire = tick + ms) (hms : ms.toNat ≤ period.toNat + 2147483649)
    (hlt : (count + 1) * period.toNat < ms.toNat) : e.isDue now = false := by
  have hle : period.toNat ≤ (count + 1) * period.toNat :=
    Nat.le_mul_of_pos_left _ (Nat.succ_pos count)
  rw [isDue, he, tickReached_of_lt hnow hlt]
  exact decide_eq_false (by omega)

/-- A longer timeout is due at the first tick after it was granted. -/
theorem TimeoutEntry.isDue_of_long {e : TimeoutEntry} {s : ClockState}
    (he : e.nextFire = s.tick + ms) (hms : period.toNat + 2147483649 < ms.toNat) :
    e.isDue (s.advance period).tick = true := by
  have hnow := ClockState.toNat_advance (toNat_no_ticks s.tick period)
  have hfirst : (0 + 1) * period.toNat < ms.toNat := by omega
  rw [isDue, he, tickReached_of_lt hnow hfirst]
  exact decide_eq_true (by omega)

namespace Schedule

/-! ## Fires, slot by slot -/

variable {s : Schedule} {f : Firing} {e : TimeoutEntry} {slot : Handle} {free alloc : List Nat}
  {wakes : Wakes}

theorem fireEntry_of_not_due (hdue : e.isDue now = false) (f : Firing) (slot : Handle) :
    fireEntry now f slot e = (f, e, .keep) := by
  rw [fireEntry, if_neg]
  simpa [TimeoutEntry.isDue] using hdue

@[simp] theorem fired_revoke (f : Firing) (id : TimeoutId) : (f.revoke id).fired = f.fired := by
  rw [Firing.revoke]
  split <;> rfl

theorem fired_fireEntry (now : Tick) (f : Firing) (slot : Handle) (e : TimeoutEntry) :
    (fireEntry now f slot e).1.fired = f.fired + (e.isDue now).toNat := by
  cases hdue : e.isDue now with
  | false =>
    rw [fireEntry_of_not_due hdue]
    rfl
  | true =>
    have hreached : tickReached now e.nextFire = true := hdue
    rw [fireEntry, if_pos hreached]
    cases e.periodic <;> simp

theorem lt_fired_fireEntry (now : Tick) (f : Firing) (slot : Handle) (e : TimeoutEntry) :
    f.fired < (fireEntry now f slot e).1.fired ↔ e.isDue now = true := by
  rw [fired_fireEntry]
  cases e.isDue now <;> simp

theorem visitList_noteSlots (now : Tick) (rest : List (Handle × TimeoutEntry)) (f : Firing)
    (slots : List Handle) :
    (Pool.visitList (noteSlots (fireEntry now)) (f, slots) rest).1.2 =
      slots ++ (rest.filter (·.2.isDue now)).map (·.1) := by
  induction rest generalizing f slots with
  | nil => exact (List.append_nil _).symm
  | cons entry rest ih =>
    obtain ⟨slot, e⟩ := entry
    simp only [Pool.visitList, noteSlots]
    rw [ih]
    by_cases hdue : e.isDue now = true
    · rw [if_pos ((lt_fired_fireEntry ..).2 hdue)]
      simp [hdue]
    · rw [if_neg (mt (lt_fired_fireEntry ..).1 hdue)]
      simp [hdue]

theorem firedSlots_eq (h : s.entries.Sound free alloc) (wakes : Wakes) (now : Tick) :
    s.firedSlots wakes now = (s.entries.toList.filter (·.2.isDue now)).map (·.1) := by
  rw [firedSlots, (Pool.sweep_spec _ _ h).state, visitList_noteSlots, List.nil_append]

theorem contains_firedSlots (h : s.entries.Sound free alloc) (he : (slot, e) ∈ s.entries.toList)
    (wakes : Wakes) (now : Tick) : (s.firedSlots wakes now).contains slot = e.isDue now := by
  apply Bool.eq_iff_iff.2
  rw [List.contains_iff_mem, firedSlots_eq h, List.mem_map]
  constructor
  · rintro ⟨⟨slot', e'⟩, hmem, rfl⟩
    obtain ⟨hmem, hdue⟩ := List.mem_filter.1 hmem
    -- a slot has one entry
    have hentry := (h.isLive_of_mem hmem).2.2.symm.trans (h.isLive_of_mem he).2.2
    cases hentry
    exact hdue
  · intro hdue
    exact ⟨(slot, e), List.mem_filter.2 ⟨he, hdue⟩, rfl⟩

theorem mem_visitList_of_not_due (hdue : e.isDue now = false)
    {rest : List (Handle × TimeoutEntry)} (he : (slot, e) ∈ rest) (f : Firing) :
    (slot, e) ∈ (Pool.visitList (fireEntry now) f rest).2 := by
  induction rest generalizing f with
  | nil => cases he
  | cons entry rest ih =>
    rcases List.mem_cons.1 he with rfl | he
    · simp only [Pool.visitList, fireEntry_of_not_due hdue, List.mem_cons, true_or]
    · simp only [Pool.visitList]
      split
      · exact List.mem_cons_of_mem _ (ih he _)
      · exact ih he _

/-! ## What becomes of an entry -/

/-- The pool is sound, and a slot of it holds an entry. -/
structure Holds (s : Schedule) (slot : Handle) (e : TimeoutEntry) : Prop where
  sound : ∃ free alloc, s.entries.Sound free alloc
  mem : (slot, e) ∈ s.entries.toList

theorem sound_fire (h : ∃ free alloc, s.entries.Sound free alloc) (wakes : Wakes) (now : Tick) :
    ∃ free alloc, (s.fire wakes now).2.1.entries.Sound free alloc := by
  obtain ⟨free, alloc, hpool⟩ := h
  exact (Pool.sweep_spec (fireEntry now) { fired := 0, caps := s.caps, wakes } hpool).sound

theorem Holds.fire (h : s.Holds slot e) (hdue : e.isDue now = false) (wakes : Wakes) :
    (s.fire wakes now).2.1.Holds slot e := by
  obtain ⟨free, alloc, hpool⟩ := h.sound
  have hswept := Pool.sweep_spec (fireEntry now) { fired := 0, caps := s.caps, wakes } hpool
  refine ⟨hswept.sound, ?_⟩
  have hkept := mem_visitList_of_not_due hdue h.mem { fired := 0, caps := s.caps, wakes }
  rw [← List.nil_append (Pool.visitList _ _ _).2, ← hswept.toList] at hkept
  exact hkept

variable {requester : Badge} {periodic : Bool} {wake : NotificationId}

theorem insert_cases (s : Schedule) (now : Tick) (requester : Badge) (periodic : Bool)
    (period : Tick) (wake : NotificationId) :
    (∃ e s', s.insert now requester periodic period wake = (.error e, s') ∧
      s'.entries = s.entries) ∨
    ∃ id slot entries caps, s.entries.allocate = .ok (slot, entries) ∧
      s.insert now requester periodic period wake =
        (.ok id, ⟨entries.modifyAt slot.index fun _ =>
          { id, requester, periodic, period, nextFire := now + period }, caps⟩) := by
  rw [insert]
  split
  · exact Or.inl ⟨_, _, rfl, rfl⟩
  · cases s.caps.mint wake requester .write with
    | error _ => exact Or.inl ⟨_, _, rfl, rfl⟩
    | ok minted =>
      cases s.entries.allocate with
      | error _ => exact Or.inl ⟨_, _, rfl, rfl⟩
      | ok allocated => exact Or.inr ⟨_, _, _, _, rfl, rfl⟩

theorem insert_of_allocate (h : s.entries.Sound free alloc) {entries : Pool TimeoutEntry}
    (hallocate : s.entries.allocate = .ok (slot, entries)) (e : TimeoutEntry) :
    (∃ free alloc, (entries.modifyAt slot.index fun _ => e).Sound free alloc) ∧
      (entries.modifyAt slot.index fun _ => e).toList = s.entries.toList ++ [(slot, e)] := by
  cases free with
  | nil =>
    rw [Pool.allocate_of_empty h.free_holds.head] at hallocate
    cases hallocate
  | cons i free =>
    rw [Pool.allocate_of_head h.free_holds.head] at hallocate
    obtain ⟨rfl, rfl⟩ := Prod.mk.inj (Except.ok.inj hallocate)
    exact ⟨⟨_, _, h.take.modifyAt _⟩, h.toList_fill e⟩

theorem sound_insert (h : ∃ free alloc, s.entries.Sound free alloc) (now : Tick)
    (requester : Badge) (periodic : Bool) (period : Tick) (wake : NotificationId) :
    (∃ free alloc,
      (s.insert now requester periodic period wake).2.entries.Sound free alloc) ∧
      ∀ entry ∈ s.entries.toList,
        entry ∈ (s.insert now requester periodic period wake).2.entries.toList := by
  obtain ⟨free, alloc, hpool⟩ := h
  rcases insert_cases s now requester periodic period wake with ⟨e, s', hinsert, hsame⟩ |
    ⟨id, slot, entries, caps, hallocate, hinsert⟩
  · rw [hinsert, hsame]
    exact ⟨⟨free, alloc, hpool⟩, fun entry hmem => hmem⟩
  · obtain ⟨hsound, htoList⟩ := insert_of_allocate hpool hallocate
      { id, requester, periodic, period, nextFire := now + period }
    rw [hinsert, htoList]
    exact ⟨hsound, fun entry hmem => List.mem_append_left _ hmem⟩

theorem cancel_cases (s : Schedule) (id : TimeoutId) :
    (s.cancel id).2.entries = s.entries ∨
      ∃ slot, s.entries.isLive slot = true ∧
        (s.cancel id).2.entries = s.entries.release slot.index := by
  rw [cancel]
  cases s.find id with
  | none => exact Or.inl rfl
  | some slot =>
    by_cases hlive : s.entries.isLive slot = true
    · refine Or.inr ⟨slot, hlive, ?_⟩
      simp only [Pool.free, if_pos hlive]
      split <;> rfl
    · refine Or.inl ?_
      simp only [Pool.free, if_neg hlive]

theorem sound_cancel (h : ∃ free alloc, s.entries.Sound free alloc) (id : TimeoutId) :
    (∃ free alloc, (s.cancel id).2.entries.Sound free alloc) ∧
      ∀ entry ∈ s.entries.toList, (s.cancel id).2.entries.isLive entry.1 = false ∨
        entry ∈ (s.cancel id).2.entries.toList := by
  obtain ⟨free, alloc, hpool⟩ := h
  rcases cancel_cases s id with hsame | ⟨slot, hlive, hreleased⟩
  · rw [hsame]
    exact ⟨⟨free, alloc, hpool⟩, fun entry hmem => Or.inr hmem⟩
  · rw [hreleased]
    obtain ⟨before, after, rfl⟩ :=
      List.append_of_mem ((hpool.marked slot.index).1 (Pool.allocated_of_isLive hlive))
    exact ⟨⟨_, _, hpool.release⟩, fun entry hmem => hpool.mem_release hlive hmem⟩

end Schedule

namespace ClockState

variable {s : ClockState} {slot : Handle} {e : TimeoutEntry}

/-! ## Following a timeout -/

theorem sound_serve (h : ∃ free alloc, s.schedule.entries.Sound free alloc) (badge : Badge)
    (m : ClockMessage) :
    (∃ free alloc, (s.serve badge m).2.schedule.entries.Sound free alloc) ∧
      ∀ entry ∈ s.schedule.entries.toList,
        (s.serve badge m).2.schedule.entries.isLive entry.1 = false ∨
          entry ∈ (s.serve badge m).2.schedule.entries.toList := by
  rw [serve]
  cases (Request.ofMessage m).1 with
  | error _ => exact ⟨h, fun entry hmem => Or.inr hmem⟩
  | ok request =>
    cases request with
    | getTime => exact ⟨h, fun entry hmem => Or.inr hmem⟩
    | setTimeout periodic period wake =>
      obtain ⟨hsound, hkept⟩ := Schedule.sound_insert h s.tick badge periodic period wake
      simp only [handle]
      split <;> rename_i heq
      all_goals
        rw [heq] at hsound hkept
        exact ⟨hsound, fun entry hmem => Or.inr (hkept entry hmem)⟩
    | cancelTimeout id =>
      obtain ⟨hsound, hkept⟩ := Schedule.sound_cancel h id
      simp only [handle]
      split <;> rename_i heq
      all_goals
        rw [heq] at hsound hkept
        exact ⟨hsound, hkept⟩

@[simp] theorem tick_serve (s : ClockState) (badge : Badge) (m : ClockMessage) :
    (s.serve badge m).2.tick = s.tick := by
  rw [serve]
  split
  · rename_i request _
    cases request with
    | getTime => rfl
    | setTimeout periodic period wake =>
      simp only [handle]
      split <;> rfl
    | cancelTimeout id =>
      simp only [handle]
      split <;> rfl
  · rfl

theorem sound_run {period : Tick} (h : ∃ free alloc, s.schedule.entries.Sound free alloc)
    (events : List ClockEvent) :
    ∃ free alloc, (s.run period events).schedule.entries.Sound free alloc := by
  unfold run
  induction events generalizing s with
  | nil => exact h
  | cons event events ih =>
    apply ih
    cases event with
    | serve badge m => exact (sound_serve h badge m).1
    | tick wakes => exact Schedule.sound_fire h wakes _

theorem holds_of_granted (h : ∃ free alloc, s.schedule.entries.Sound free alloc) {badge : Badge}
    {m : ClockMessage} {periodic : Bool} {wake : NotificationId} {id : TimeoutId} {insertedAt : Tick}
    (hm : (Request.ofMessage m).1 = .ok (.setTimeout periodic ms wake))
    {entries : Pool TimeoutEntry} (hallocate : s.schedule.entries.allocate = .ok (slot, entries))
    (hgranted : (s.serve badge m).1 = .scheduled id insertedAt) :
    ∃ e, (s.serve badge m).2.schedule.Holds slot e ∧ e.nextFire = s.tick + ms := by
  obtain ⟨free, alloc, hpool⟩ := h
  simp only [serve, hm, handle] at hgranted ⊢
  rcases Schedule.insert_cases s.schedule s.tick badge periodic ms wake with
    ⟨err, schedule, hinsert, -⟩ | ⟨id', slot', entries', caps, hallocate', hinsert⟩
  · rw [hinsert] at hgranted
    cases hgranted
  · obtain ⟨rfl, rfl⟩ := Prod.mk.inj (Except.ok.inj (hallocate.symm.trans hallocate'))
    let e : TimeoutEntry :=
      { id := id', requester := badge, periodic, period := ms, nextFire := s.tick + ms }
    obtain ⟨hsound, htoList⟩ := Schedule.insert_of_allocate hpool hallocate e
    rw [hinsert]
    exact ⟨e, ⟨hsound, htoList ▸ List.mem_append_right _ (List.mem_singleton_self _)⟩, rfl⟩

theorem firesIn_eq_false (h : s.schedule.Holds slot e)
    (hnow : s.tick.toNat = (tick.toNat + count * period.toNat) % 4294967296)
    (he : e.nextFire = tick + ms) (hms : ms.toNat ≤ period.toNat + 2147483649)
    {events : List ClockEvent}
    (hlt : (count + ClockEvent.ticks events) * period.toNat < ms.toNat) :
    firesIn period slot s events = false := by
  induction events generalizing s count with
  | nil => rfl
  | cons event events ih =>
    cases event with
    | serve badge m =>
      obtain ⟨hsound, hkept⟩ := sound_serve h.sound badge m
      rw [firesIn]
      rcases hkept (slot, e) h.mem with hdead | hmem
      · rw [hdead, Bool.false_and]
      · rw [ih ⟨hsound, hmem⟩ ((tick_serve s badge m).symm ▸ hnow) hlt, Bool.and_false]
    | tick wakes =>
      have hticks : count + ClockEvent.ticks (.tick wakes :: events) =
          count + 1 + ClockEvent.ticks events := by
        simp only [ClockEvent.ticks, ClockEvent.isTick, List.countP_cons, if_true]
        omega
      rw [hticks] at hlt
      have hnext : (count + 1) * period.toNat < ms.toNat :=
        Nat.lt_of_le_of_lt (Nat.mul_le_mul_right _ (Nat.le_add_right ..)) hlt
      have hadvanced := toNat_advance hnow
      have hdue : e.isDue (s.advance period).tick = false :=
        TimeoutEntry.isDue_of_early hadvanced he hms hnext
      obtain ⟨free, alloc, hpool⟩ := h.sound
      have hfired : ((s.advance period).schedule.firedSlots wakes (s.advance period).tick).contains
          slot = false := (Schedule.contains_firedSlots hpool h.mem wakes _).trans hdue
      rw [firesIn, hfired, Bool.false_or]
      exact ih (h.fire hdue wakes) hadvanced hlt

theorem firesIn_tick (h : s.schedule.Holds slot e) (he : e.nextFire = s.tick + ms)
    (hms : period.toNat + 2147483649 < ms.toNat) (wakes : Wakes) :
    firesIn period slot s [.tick wakes] = true := by
  have hdue : e.isDue (s.advance period).tick = true := TimeoutEntry.isDue_of_long he hms
  obtain ⟨free, alloc, hpool⟩ := h.sound
  have hfired : ((s.advance period).schedule.firedSlots wakes (s.advance period).tick).contains
      slot = true := (Schedule.contains_firedSlots hpool h.mem wakes _).trans hdue
  rw [firesIn, hfired, Bool.true_or]

@[simp] theorem decode_setTimeout (ms : Tick) (wake : NotificationId) :
    (Request.ofMessage (Request.toMessage (.setTimeout false ms wake))).1 =
      .ok (.setTimeout false ms wake) := by
  simp [Request.ofMessage, Request.decode, Request.toMessage, Opcode.ofWord, Message.flagArg,
    Message.tickArg, Message.arg, Message.word?, bind, Except.bind]

/-- The timeouts of a length are never early just if the length is at most half the range of ticks, and
a little, more than the period. -/
theorem punctual_iff (period ms : Tick) :
    Punctual period ms ↔ ms.toNat ≤ period.toNat + 2147483649 := by
  constructor
  · intro hpunctual
    by_contra hlong
    obtain ⟨schedule, hmade, hlock, hcapacity, hempty, -⟩ := Schedule.ofCapacity_spec Nat.one_pos
    have hroom : schedule.size < schedule.capacity := by
      rw [hlock.size_eq, hcapacity, hempty]
      exact Nat.one_pos
    let s : ClockState := { tick := 0, schedule }
    let m : ClockMessage := Request.toMessage (.setTimeout false ms 0)
    obtain ⟨_, slot, entries, -, hallocate⟩ := Schedule.insert_parts_of_lt hlock hroom 0 0
    obtain ⟨id, _, hinsert⟩ := Schedule.insert_isOk_of_lt hlock hroom s.tick 0 false ms 0
    have hgranted : (s.serve 0 m).1 = .scheduled id 0 := by
      simp only [serve, m, decode_setTimeout, handle, s, hinsert]
    obtain ⟨e, hholds, he⟩ := holds_of_granted hlock.pool (decode_setTimeout ms 0) hallocate hgranted
    have hearly : firesIn period slot (s.serve 0 m).2 [.tick ⟨#[]⟩] = true :=
      firesIn_tick hholds (by rw [he, tick_serve]) (by omega) ⟨#[]⟩
    have honce : ClockEvent.ticks [.tick ⟨#[]⟩] * period.toNat < ms.toNat := by
      rw [show ClockEvent.ticks [.tick ⟨#[]⟩] = 1 from rfl]
      omega
    have hnever := hpunctual 1 schedule hmade 0 [] 0 m false 0 (decode_setTimeout ms 0) slot entries
      hallocate id 0 hgranted [.tick ⟨#[]⟩] honce
    exact Bool.false_ne_true (hnever.symm.trans hearly)
  · rintro hms capacity schedule hmade tick before badge m periodic wake hm s slot entries hallocate
      id insertedAt hgranted events hlt
    obtain ⟨hlock, -⟩ := Schedule.lockstep_of_ofCapacity hmade
    have hsound : ∃ free alloc, s.schedule.entries.Sound free alloc :=
      sound_run (s := { tick, schedule }) hlock.pool before
    obtain ⟨e, hholds, he⟩ := holds_of_granted hsound hm hallocate hgranted
    have hnow : (s.serve badge m).2.tick.toNat = (s.tick.toNat + 0 * period.toNat) % 4294967296 := by
      rw [tick_serve]
      exact toNat_no_ticks s.tick period
    exact firesIn_eq_false hholds hnow he hms (by rwa [Nat.zero_add])

end ClockState

end Osal
