import Mathlib.Data.List.Forall2
import Osal.Proofs.Clock.Lockstep

/-!
# A schedule behaves as one whose time never wraps

`Agenda` is a bounded set of timeouts over unbounded time: a deadline is a natural number, and it is
due at every time from there on. `trace_eq_of_paced`: a schedule that is given each time modulo the
range of ticks answers, fires and re-arms as the agenda does, as long as the run is `Paced`. What
carries the proof is a window: no deadline lies before the last fire, and none lies more than half the
range ahead of the time, so the comparison of ticks is the comparison of times.
-/

namespace Osal

/-! ## The reference -/

/-- A pending timeout in unbounded time. -/
structure Alarm where
  id : Nat
  wake : NotificationId
  periodic : Bool
  period : Nat
  deadline : Nat

namespace Alarm

def isDue (time : Nat) (a : Alarm) : Bool := decide (a.deadline ≤ time)

def rearm (time : Nat) (a : Alarm) : Alarm :=
  let next := a.deadline + a.period
  { a with deadline := if time < next then next else time + a.period }

def afterFire (time : Nat) (a : Alarm) : Option Alarm :=
  if a.isDue time then if a.periodic then some (a.rearm time) else none else some a

end Alarm

/-- An operation at a time. -/
inductive TimedOp where
  | insert (time : Nat) (requester : Badge) (periodic : Bool) (period : Tick)
      (wake : NotificationId)
  | cancel (time : Nat) (id : TimeoutId)
  | fire (time : Nat) (wakes : Wakes)

/-- The operation as a schedule sees it, at the time modulo the range of ticks. -/
def TimedOp.wrapped : TimedOp → Schedule.Op
  | .insert time requester periodic period wake =>
    .insert (.ofNat time) requester periodic period wake
  | .cancel _ id => .cancel id
  | .fire time wakes => .fire wakes (.ofNat time)

/-- What one operation shows: its answer, the names of the timeouts that it fired, and the name and
the tick of each timeout that is pending after it. -/
structure Sight where
  answer : Schedule.Answer Nat
  fired : List Nat
  pending : List (Nat × Tick)

/-- A bounded set of alarms in the order in which they were set, and how many ever were. -/
structure Agenda where
  capacity : Nat
  granted : Nat
  alarms : List Alarm

namespace Agenda

def empty (capacity : Nat) : Agenda := { capacity, granted := 0, alarms := [] }

def signalEach (time : Nat) (alarms : List Alarm) (wakes : Wakes) : Wakes :=
  alarms.foldl (fun wakes a => (wakes.signal a.wake (.timeout (.ofNat time))).2) wakes

def due (r : Agenda) (time : Nat) : List Alarm := r.alarms.filter (·.isDue time)

def perform (r : Agenda) : TimedOp → Schedule.Answer Nat × Agenda
  | .insert time _ periodic period wake =>
    if r.alarms.length = r.capacity then (.inserted (.error .schedulerFull), r)
    else
      let alarm := { id := r.granted + 1, wake, periodic, period := period.toNat,
                     deadline := time + period.toNat }
      (.inserted (.ok alarm.id),
        { r with granted := r.granted + 1, alarms := r.alarms ++ [alarm] })
  | .cancel _ id =>
    if id.cptr.toNat ∈ r.alarms.map (·.id) then
      (.cancelled (.ok ()), { r with alarms := r.alarms.filter (·.id != id.cptr.toNat) })
    else (.cancelled (.error (.timeoutNotFound id)), r)
  | .fire time wakes =>
    (.fired (r.due time).length (signalEach time (r.due time) wakes),
      { r with alarms := r.alarms.filterMap (·.afterFire time) })

def fires (r : Agenda) : TimedOp → List Nat
  | .fire time _ => (r.due time).map (·.id)
  | _ => []

def ticks (r : Agenda) : List (Nat × Tick) := r.alarms.map fun a => (a.id, .ofNat a.deadline)

def trace (r : Agenda) : List TimedOp → List Sight
  | [] => []
  | op :: ops =>
    let (answer, r') := r.perform op
    { answer, fired := r.fires op, pending := r'.ticks } :: r'.trace ops

end Agenda

namespace Schedule

def Answer.map {ι κ : Type} (f : ι → κ) : Answer ι → Answer κ
  | .inserted result => .inserted (result.map f)
  | .cancelled result => .cancelled result
  | .fired count wakes => .fired count wakes

def fires (s : Schedule) : Op → List TimeoutId
  | .fire wakes now => s.firedIds wakes now
  | _ => []

def ticks (s : Schedule) : List (Nat × Tick) :=
  s.pending.map fun e => (e.id.cptr.toNat, e.nextFire)

def trace (s : Schedule) : List TimedOp → List Sight
  | [] => []
  | op :: ops =>
    let (answer, s') := s.perform op.wrapped
    { answer := answer.map (·.cptr.toNat)
      fired := (s.fires op.wrapped).map (·.cptr.toNat)
      pending := s'.ticks } :: s'.trace ops

/-- Whether a run whose last fire was at `last` and whose time is `now` goes on at a pace that ticks
can follow. -/
def Paced (last now : Nat) : List TimedOp → Prop
  | [] => True
  | .insert time _ periodic period _ :: ops =>
    now ≤ time ∧ period.toNat ≤ 2147483648 ∧ (periodic = true → 1 ≤ period.toNat) ∧
      Paced last time ops
  | .cancel time _ :: ops => now ≤ time ∧ Paced last time ops
  | .fire time _ :: ops => now ≤ time ∧ time ≤ last + 2147483646 ∧ Paced time time ops

/-! ## The window -/

/-- A timeout stands for an alarm whose deadline is in the window. -/
structure Mirrors (s : Schedule) (last now : Nat) (e : TimeoutEntry) (a : Alarm) : Prop where
  id : e.id.cptr.toNat = a.id
  wake : s.wakeOf e.id = some a.wake
  periodic : e.periodic = a.periodic
  period : e.period = .ofNat a.period
  nextFire : e.nextFire = .ofNat a.deadline
  not_missed : last ≤ a.deadline
  near : a.deadline ≤ now + 2147483648
  period_le : a.period ≤ 2147483648
  period_pos : a.periodic = true → 1 ≤ a.period

structure Simulates (last now : Nat) (s : Schedule) (r : Agenda) : Prop where
  ordered : last ≤ now
  lockstep : s.Lockstep r.granted
  capacity : s.capacity = r.capacity
  mirrors : List.Forall₂ (s.Mirrors last now) s.pending r.alarms

variable {s : Schedule} {r : Agenda} {e : TimeoutEntry} {a : Alarm} {last now time deadline : Nat}

/-- In the window the comparison of ticks is the comparison of times. -/
theorem tickReached_ofNat (hlast : last ≤ deadline) (hgap : time ≤ last + 2147483646)
    (hnear : deadline ≤ time + 2147483648) :
    tickReached (.ofNat time) (.ofNat deadline) = decide (deadline ≤ time) := by
  unfold tickReached
  have hdiff : (UInt32.ofNat time - UInt32.ofNat deadline).toNat =
      (4294967296 - deadline % 4294967296 + time % 4294967296) % 4294967296 := by
    rw [UInt32.toNat_sub, UInt32.toNat_ofNat', UInt32.toNat_ofNat']
  apply decide_eq_decide.2
  rw [UInt32.lt_iff_toNat_lt, hdiff]
  show _ < 2147483647 ↔ _
  omega

theorem Mirrors.isDue_eq (h : s.Mirrors last now e a) (hnow : now ≤ time)
    (hgap : time ≤ last + 2147483646) : e.isDue (.ofNat time) = a.isDue time := by
  have hnear := h.near
  unfold TimeoutEntry.isDue Alarm.isDue
  rw [h.nextFire]
  exact tickReached_ofNat h.not_missed hgap (by omega)

theorem Mirrors.later (h : s.Mirrors last now e a) (hnow : now ≤ time) :
    s.Mirrors last time e a :=
  { h with near := Nat.le_trans h.near (by omega) }

theorem Mirrors.rearm (h : s.Mirrors last now e a)
    (hgap : time ≤ last + 2147483646) (hdue : a.deadline ≤ time) (hperiodic : a.periodic = true) :
    s.Mirrors time time (e.rearm (.ofNat time)) (a.rearm time) := by
  have hmissed := h.not_missed
  have hle := h.period_le
  have hpos := h.period_pos hperiodic
  have hsum : e.nextFire + e.period = .ofNat (a.deadline + a.period) := by
    rw [h.nextFire, h.period, UInt32.ofNat_add]
  have hreached : tickReached (.ofNat time) (e.nextFire + e.period) =
      decide (a.deadline + a.period ≤ time) := by
    rw [hsum]
    exact tickReached_ofNat (by omega) hgap (by omega)
  refine
    { id := h.id, wake := h.wake, periodic := h.periodic, period := h.period, period_le := hle
      period_pos := h.period_pos, nextFire := ?_, not_missed := ?_, near := ?_ }
  · simp only [TimeoutEntry.rearm, Alarm.rearm, hreached]
    by_cases hnext : time < a.deadline + a.period
    · rw [if_pos hnext, if_neg (by simp; omega), hsum]
    · rw [if_neg hnext, if_pos (by simp; omega), h.period, UInt32.ofNat_add]
  · simp only [Alarm.rearm]
    split <;> omega
  · simp only [Alarm.rearm]
    split <;> omega

theorem mirrors_congr {s' : Schedule} {entries : List TimeoutEntry} {alarms : List Alarm}
    (h : List.Forall₂ (s.Mirrors last now) entries alarms)
    (hwake : ∀ e ∈ entries, s'.wakeOf e.id = s.wakeOf e.id) :
    List.Forall₂ (s'.Mirrors last now) entries alarms := by
  refine ((List.forall₂_and_left _ _).2 ⟨hwake, h⟩).imp ?_
  intro e a ⟨hsame, hmirrors⟩
  exact { hmirrors with wake := hsame.trans hmirrors.wake }

theorem map_eq_map_of_forall₂ {α β γ : Type} {R : α → β → Prop} {f : α → γ} {g : β → γ}
    {l : List α} {l' : List β} (h : List.Forall₂ R l l') (hfg : ∀ a b, R a b → f a = g b) :
    l.map f = l'.map g := by
  rw [← List.forall₂_eq_eq_eq, List.forall₂_map_left_iff, List.forall₂_map_right_iff]
  exact h.imp hfg

theorem Simulates.ticks_eq (h : Simulates last now s r) : s.ticks = r.ticks := by
  apply map_eq_map_of_forall₂ h.mirrors
  intro e a hmirrors
  rw [hmirrors.id, hmirrors.nextFire]

theorem Simulates.ids_eq (h : Simulates last now s r) :
    s.pending.map (·.id.cptr.toNat) = r.alarms.map (·.id) :=
  map_eq_map_of_forall₂ h.mirrors fun _ _ hmirrors => hmirrors.id

theorem Simulates.length_eq (h : Simulates last now s r) : r.alarms.length = s.size := by
  rw [h.lockstep.size_eq, h.mirrors.length_eq]

/-! ## The simulation -/

theorem simulates_insert (h : Simulates last now s r) (hnow : now ≤ time) (requester : Badge)
    {periodic : Bool} {period : Tick} (wake : NotificationId) (hle : period.toNat ≤ 2147483648)
    (hpos : periodic = true → 1 ≤ period.toNat)
    (hn : r.granted + grants
      [(s.perform (.insert (.ofNat time) requester periodic period wake)).1] ≤ maxGranted) :
    let answered := s.perform (.insert (.ofNat time) requester periodic period wake)
    let expected := r.perform (.insert time requester periodic period wake)
    answered.1.map (·.cptr.toNat) = expected.1 ∧ Simulates last time answered.2 expected.2 ∧
      expected.2.granted = r.granted + grants [answered.1] := by
  have hlater : List.Forall₂ (s.Mirrors last time) s.pending r.alarms :=
    h.mirrors.imp fun _ _ hmirrors => hmirrors.later hnow
  have hordered := Nat.le_trans h.ordered hnow
  by_cases hfull : s.size = s.capacity
  · have hfull' : r.alarms.length = r.capacity := by rw [h.length_eq, hfull, h.capacity]
    simp only [perform, insert_of_full h.lockstep hfull, Agenda.perform, if_pos hfull']
    exact ⟨rfl, ⟨hordered, h.lockstep, h.capacity, hlater⟩, rfl⟩
  · have hroom := Nat.lt_of_le_of_ne h.lockstep.size_le hfull
    have hroom' : ¬ r.alarms.length = r.capacity := by
      rw [h.length_eq, ← h.capacity]
      exact hfull
    obtain ⟨id, s', hok⟩ := insert_isOk_of_lt h.lockstep hroom (.ofNat time) requester periodic
      period wake
    simp only [perform, hok] at hn
    obtain ⟨s', hinsert, hlock, hcapacity, hpending, hid, hwake, hothers⟩ :=
      insert_of_lt h.lockstep hn hroom (.ofNat time) requester periodic period wake
    simp only [perform, hinsert, Agenda.perform, if_neg hroom']
    refine ⟨?_, ⟨hordered, hlock, hcapacity.trans h.capacity, ?_⟩, rfl⟩
    · exact congrArg (fun id => Answer.inserted (.ok id)) hid
    · rw [hpending]
      refine List.rel_append ?_ (.cons ?_ .nil)
      · refine mirrors_congr hlater fun e he => hothers _ fun heq => ?_
        have hnamed := h.lockstep.named e he
        rw [heq] at hnamed
        omega
      · exact
          { id := hid, wake := hwake, periodic := rfl, period := UInt32.ofNat_toNat.symm
            nextFire := by rw [UInt32.ofNat_add, UInt32.ofNat_toNat]
            not_missed := Nat.le_trans hordered (Nat.le_add_right _ _)
            near := Nat.add_le_add_left hle _, period_le := hle, period_pos := hpos }

theorem simulates_cancel (h : Simulates last now s r) (hnow : now ≤ time) (id : TimeoutId) :
    let answered := s.perform (.cancel id)
    let expected := r.perform (.cancel time id)
    answered.1.map (·.cptr.toNat) = expected.1 ∧ Simulates last time answered.2 expected.2 ∧
      expected.2.granted = r.granted + grants [answered.1] := by
  have hlater : List.Forall₂ (s.Mirrors last time) s.pending r.alarms :=
    h.mirrors.imp fun _ _ hmirrors => hmirrors.later hnow
  have hordered := Nat.le_trans h.ordered hnow
  have hnames : ∀ id' : TimeoutId, id'.cptr.toNat = id.cptr.toNat ↔ id' = id := fun id' =>
    ⟨fun heq => TimeoutId.eq_of_cptr (UInt32.toNat_inj.1 heq), fun heq => by rw [heq]⟩
  have hpending : (∃ e ∈ s.pending, e.id = id) ↔ id.cptr.toNat ∈ r.alarms.map (·.id) := by
    rw [← h.ids_eq, List.mem_map]
    simp only [hnames]
  by_cases hid : ∃ e ∈ s.pending, e.id = id
  · obtain ⟨s', hcancel, hlock, hcapacity, hkept, hothers⟩ := cancel_of_mem h.lockstep hid
    simp only [perform, hcancel, Agenda.perform, if_pos (hpending.1 hid)]
    refine ⟨rfl, ⟨hordered, hlock, hcapacity.trans h.capacity, ?_⟩, rfl⟩
    have hfiltered : List.Forall₂ (s.Mirrors last time) s'.pending
        (r.alarms.filter (·.id != id.cptr.toNat)) := by
      rw [hkept]
      refine List.rel_filter ?_ hlater
      intro e a hmirrors
      simp only [bne_iff_ne, ne_eq, ← hmirrors.id, hnames]
    have hne : ∀ e ∈ s'.pending, e.id ≠ id := by
      intro e he
      rw [hkept, List.mem_filter] at he
      simpa using he.2
    exact mirrors_congr hfiltered fun e he => hothers _ (hne e he)
  · have habsent : ∀ e ∈ s.pending, e.id ≠ id := fun e he heq => hid ⟨e, he, heq⟩
    simp only [perform, cancel_of_notMem h.lockstep habsent, Agenda.perform,
      if_neg (fun hmem => hid (hpending.2 hmem))]
    exact ⟨rfl, ⟨hordered, h.lockstep, h.capacity, hlater⟩, rfl⟩

theorem signalEach_eq {entries : List TimeoutEntry} {alarms : List Alarm}
    (h : List.Forall₂ (s.Mirrors last now) entries alarms) (wakes : Wakes) :
    s.caps.signalEach (.ofNat time) entries wakes = Agenda.signalEach time alarms wakes := by
  induction h generalizing wakes with
  | nil => rfl
  | cons hmirrors _ ih =>
    obtain ⟨cap, hlookup, hobject⟩ := Option.map_eq_some_iff.1 hmirrors.wake
    simp only [CapSpace.signalEach, Agenda.signalEach, List.foldl_cons, hlookup, hobject] at ih ⊢
    exact ih _

theorem due_mirrors (h : Simulates last now s r) (hnow : now ≤ time)
    (hgap : time ≤ last + 2147483646) :
    List.Forall₂ (s.Mirrors last now) (s.due (.ofNat time)) (r.due time) := by
  refine List.rel_filter ?_ h.mirrors
  intro e a hmirrors
  simp only [hmirrors.isDue_eq hnow hgap]

theorem simulates_fire (h : Simulates last now s r) (hnow : now ≤ time)
    (hgap : time ≤ last + 2147483646) (wakes : Wakes) :
    let answered := s.perform (.fire wakes (.ofNat time))
    let expected := r.perform (.fire time wakes)
    answered.1.map (·.cptr.toNat) = expected.1 ∧ Simulates time time answered.2 expected.2 ∧
      expected.2.granted = r.granted + grants [answered.1] := by
  have hdue := due_mirrors h hnow hgap
  obtain ⟨s', hfire, hlock, hcapacity, hpending, hwake⟩ := fire_spec h.lockstep wakes (.ofNat time)
  simp only [perform, hfire, Agenda.perform, Answer.map]
  refine ⟨?_, ⟨Nat.le_refl _, hlock, hcapacity.trans h.capacity, ?_⟩, rfl⟩
  · rw [hdue.length_eq, signalEach_eq hdue]
  · have hkept : List.Forall₂ (s.Mirrors time time) s'.pending
        (r.alarms.filterMap (·.afterFire time)) := by
      rw [hpending]
      refine List.rel_filterMap ?_ h.mirrors
      intro e a hmirrors
      simp only [TimeoutEntry.afterFire, Alarm.afterFire, hmirrors.isDue_eq hnow hgap,
        hmirrors.periodic]
      by_cases hreached : a.deadline ≤ time
      · have hisDue : a.isDue time = true := decide_eq_true hreached
        rw [if_pos hisDue, if_pos hisDue]
        by_cases hperiodic : a.periodic = true
        · rw [if_pos hperiodic, if_pos hperiodic]
          exact .some (hmirrors.rearm hgap hreached hperiodic)
        · rw [if_neg hperiodic, if_neg hperiodic]
          exact .none
      · have hisDue : ¬ a.isDue time = true := fun hdue => hreached (of_decide_eq_true hdue)
        rw [if_neg hisDue, if_neg hisDue]
        exact .some { hmirrors.later hnow with not_missed := by omega }
    exact mirrors_congr hkept hwake

theorem Simulates.fires_eq (h : Simulates last now s r) (hnow : now ≤ time)
    (hgap : time ≤ last + 2147483646) (wakes : Wakes) :
    (s.firedIds wakes (.ofNat time)).map (·.cptr.toNat) = (r.due time).map (·.id) := by
  rw [firedIds_eq h.lockstep, List.map_map]
  exact map_eq_map_of_forall₂ (due_mirrors h hnow hgap) fun _ _ hmirrors => hmirrors.id

theorem trace_eq (h : Simulates last now s r) (ops : List TimedOp) (hpaced : Paced last now ops)
    (hn : r.granted + grants (s.run (ops.map TimedOp.wrapped)).1 ≤ maxGranted) :
    s.trace ops = r.trace ops := by
  induction ops generalizing last now s r with
  | nil => rfl
  | cons op ops ih =>
    simp only [List.map_cons, run] at hn
    rw [grants_cons, ← Nat.add_assoc] at hn
    have hhead := Nat.le_trans (Nat.le_add_right _ _) hn
    simp only [trace, Agenda.trace]
    -- the step at hand, whatever the operation: it shows the same and the runs go on in step
    suffices hstep : ∃ last' now', Paced last' now' ops ∧
        (s.perform op.wrapped).1.map (·.cptr.toNat) = (r.perform op).1 ∧
        (s.fires op.wrapped).map (·.cptr.toNat) = r.fires op ∧
        Simulates last' now' (s.perform op.wrapped).2 (r.perform op).2 ∧
        (r.perform op).2.granted = r.granted + grants [(s.perform op.wrapped).1] by
      obtain ⟨last', now', hpaced', hanswer, hfires, hsim, hgranted⟩ := hstep
      rw [← hgranted] at hn
      rw [hanswer, hfires, hsim.ticks_eq, ih hsim hpaced' hn]
    cases op with
    | insert time requester periodic period wake =>
      obtain ⟨hnow, hle, hpos, hpaced⟩ := hpaced
      obtain ⟨hanswer, hsim, hgranted⟩ :=
        simulates_insert h hnow requester wake hle hpos hhead
      exact ⟨last, time, hpaced, hanswer, rfl, hsim, hgranted⟩
    | cancel time id =>
      obtain ⟨hnow, hpaced⟩ := hpaced
      obtain ⟨hanswer, hsim, hgranted⟩ := simulates_cancel h hnow id
      exact ⟨last, time, hpaced, hanswer, rfl, hsim, hgranted⟩
    | fire time wakes =>
      obtain ⟨hnow, hgap, hpaced⟩ := hpaced
      obtain ⟨hanswer, hsim, hgranted⟩ := simulates_fire h hnow hgap wakes
      exact ⟨time, time, hpaced, hanswer, h.fires_eq hnow hgap wakes, hsim, hgranted⟩

/-- In a paced run a schedule shows what the agenda shows, however often the ticks wrap. -/
theorem trace_eq_of_paced (capacity start : Nat) (hcap : 0 < capacity) :
    ∃ s₀, ofCapacity capacity = .ok s₀ ∧
      ∀ ops, Paced start start ops →
        grants (s₀.run (ops.map TimedOp.wrapped)).1 ≤ maxGranted →
        s₀.trace ops = (Agenda.empty capacity).trace ops := by
  obtain ⟨s₀, hmade, hlock, hcapacity, hpending, -⟩ := ofCapacity_spec hcap
  refine ⟨s₀, hmade, fun ops hpaced hn => trace_eq ?_ ops hpaced ?_⟩
  · exact ⟨Nat.le_refl _, hlock, hcapacity, hpending ▸ .nil⟩
  · show 0 + _ ≤ _
    omega

/-- A periodic timeout set just before the ticks wrap is re-armed after they did, twice. -/
theorem trace_eq_around_wrap :
    ∃ s₀, ofCapacity 2 = .ok s₀ ∧
      s₀.trace [.insert 4294967290 7 true 10 0, .fire 4294967299 ⟨#[{}]⟩,
          .fire 4294967301 ⟨#[{}]⟩, .fire 6442450900 ⟨#[{}]⟩] =
        [⟨.inserted (.ok 1), [], [(1, 4)]⟩,
          ⟨.fired 0 ⟨#[{}]⟩, [], [(1, 4)]⟩,
          ⟨.fired 1 ⟨#[{ pending := some (.timeout 5) }]⟩, [1], [(1, 14)]⟩,
          ⟨.fired 1 ⟨#[{ pending := some (.timeout 2147483604) }]⟩, [1], [(1, 2147483614)]⟩] := by
  obtain ⟨s₀, hmade, hagree⟩ := trace_eq_of_paced 2 4294967290 (by decide)
  refine ⟨s₀, hmade, ?_⟩
  rw [hagree]
  · rfl
  · simp [Paced]
  · refine Nat.le_trans (grants_le_length _) ?_
    rw [length_run]
    decide

end Schedule

end Osal
