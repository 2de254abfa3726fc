import Mathlib.Data.List.Basic
import Osal.Proofs.Process.Threads
import Osal.Proofs.Semaphore.Conservation
import Osal.Proofs.Semaphore.Room

/-!
# The wait queue of a process

A household is a process with its threads and a semaphore that it made. Its threads take the semaphore,
and so does one visitor from outside; a thread inside a take does not end its routine. Spawns, exits,
gives, wakes of any kind and answers of the clock come in between as they like.

The semaphore has a wait slot for each thread that the process may have, and one more.
`queue_suffices`: that is enough, so that a thread that comes to wait always finds a free slot.
-/

namespace Osal

/-- A process with its threads, and those who take a semaphore of it. The visitor waits on the first
notification, and each spawned thread on the next one. -/
structure Household where
  tenancy : Tenancy
  crowd : Crowd

/-- What can happen in a household. -/
inductive HouseholdEvent where
  | tenancy (event : TenancyEvent)
  | crowd (event : Crowd.Event)
  /-- A thread that is not inside a take consumes a wake that is pending for it. -/
  | hear (thread : NotificationId)

namespace Household

/-- A process without threads, and a semaphore that it made. -/
def ofProcess (process : ProcessEnv) (initial : Bool) : Household :=
  { tenancy := { process }, crowd := { semaphore := process.semaphore initial, wakes := .ofCount 1 } }

def isRunning (thread : Thread) : Bool := thread.phase = .running

/-- Whether a number is that of the visitor or of a thread in its routine. -/
def isTaker (h : Household) : NotificationId → Bool
  | 0 => true
  | k + 1 => h.tenancy.threads[k]?.any isRunning

/-- Who may take the semaphore: the visitor, and the threads in their routines. -/
def takers (h : Household) : List NotificationId := 0 :: h.tenancy.threads.findIdxs isRunning 1

/-- Whether an event is possible: only takers take, and no thread ends its routine or hears of
anything else inside a take. -/
def allows (h : Household) : HouseholdEvent → Bool
  | .tenancy (.leave k _) => (h.crowd.threads (k + 1)).isNone
  | .crowd (.take k _) => h.isTaker k
  | .hear k => (h.crowd.threads k).isNone
  | _ => true

/-- What a possible event leads to. A spawned thread gets a notification of its own. -/
def perform (h : Household) : HouseholdEvent → Household
  | .tenancy event =>
    let tenancy := h.tenancy.handle event
    let wakes :=
      if h.tenancy.threads.length < tenancy.threads.length then h.crowd.wakes.add.2 else h.crowd.wakes
    { tenancy, crowd := { h.crowd with wakes } }
  | .crowd event => { h with crowd := h.crowd.handle event }
  | .hear k => { h with crowd := { h.crowd with wakes := (h.crowd.wakes.poll k).2 } }

def handle (h : Household) (event : HouseholdEvent) : Household :=
  if h.allows event then h.perform event else h

def run (h : Household) (events : List HouseholdEvent) : Household := events.foldl handle h

variable {h : Household} {k : NotificationId}

theorem mem_takers_iff : k ∈ h.takers ↔ h.isTaker k = true := by
  cases k with
  | zero => simp [takers, isTaker]
  | succ k =>
    simp only [takers, isTaker, List.mem_cons, Nat.succ_ne_zero, false_or,
      List.mem_findIdxs_iff_getElem_sub_pos, Option.any_eq_true, List.getElem?_eq_some_iff]
    constructor
    · rintro ⟨-, hlt, hrunning⟩
      exact ⟨_, ⟨hlt, rfl⟩, hrunning⟩
    · rintro ⟨thread, ⟨hlt, rfl⟩, hrunning⟩
      exact ⟨Nat.le_add_left .., hlt, hrunning⟩

/-- The threads are as many as their slots allow, and the wait queue has a slot for all takers. -/
structure Roomy (h : Household) : Prop where
  settled : h.tenancy.Settled
  orderly : h.crowd.semaphore.Orderly h.crowd.point?
  listed : ∀ k, (h.crowd.point? k).isSome → h.isTaker k = true
  length_slots : h.crowd.semaphore.slots.length = h.tenancy.process.config.semaphoreQueueSize

theorem Roomy.manned (hroomy : h.Roomy) :
    h.crowd.semaphore.Manned h.crowd.point? h.takers := by
  refine ⟨fun k hk => mem_takers_iff.2 (hroomy.listed k hk), ?_⟩
  have hrunning : h.tenancy.threads.countP isRunning ≤ h.tenancy.live.length := by
    rw [Tenancy.live, ← List.countP_eq_length_filter]
    refine List.countP_mono_left fun thread _ hthread => ?_
    have hphase : thread.phase = .running := of_decide_eq_true hthread
    simp [Thread.isFinished, hphase]
  have hlive := hroomy.settled.length_live_le
  rw [hroomy.length_slots, Config.semaphoreQueueSize, takers, List.length_cons, List.length_findIdxs]
  omega

/-! ## What happens to the process -/

theorem isRunning_handle {t : Tenancy} {k : Nat} (event : TenancyEvent)
    (hstays : ∀ routineEnd, event ≠ .leave k routineEnd) (hk : t.threads[k]?.any isRunning = true) :
    (t.handle event).threads[k]?.any isRunning = true := by
  obtain ⟨thread, hthread, hrunning⟩ := (Option.any_eq_true _ _).1 hk
  have hphase : thread.phase = .running := of_decide_eq_true hrunning
  obtain ⟨hlt, -⟩ := List.getElem?_eq_some_iff.1 hthread
  cases event with
  | spawn name =>
    simp only [Tenancy.handle]
    split
    · exact hk
    · rw [List.getElem?_append_left hlt]
      exact hk
  | leave j routineEnd =>
    have hne : j ≠ k := fun heq => hstays routineEnd (heq ▸ rfl)
    simp only [Tenancy.handle]
    split
    · exact hk
    · split
      · rw [List.getElem?_set_ne hne]
        exact hk
      · exact hk
  | finish j =>
    simp only [Tenancy.handle]
    split
    · exact hk
    · rename_i other hother
      by_cases heq : j = k
      · subst heq
        obtain rfl := Option.some.inj (hother.symm.trans hthread)
        have hfinish : t.process.finish other = (other, t.process) :=
          ProcessEnv.finish_of_not_leaving fun routineEnd hleaving => by
            rw [hphase] at hleaving
            cases hleaving
        rw [hfinish, List.getElem?_set_self hlt]
        exact hrunning
      · rw [List.getElem?_set_ne heq]
        exact hk

/-! ## What happens to the semaphore -/

/-- What a thread inside a take has to show when it moves. -/
theorem Roomy.advance (hroomy : h.Roomy) {timeoutMs : Int32} {p : Take.Point}
    (hk : h.crowd.threads k = some (timeoutMs, p)) {next : (Semaphore × Wakes) × Take.Turn}
    (horderly : next.1.1.Orderly (Function.update h.crowd.point? k (Take.place next.2)))
    (hlength : next.1.1.slots.length = h.crowd.semaphore.slots.length) :
    Roomy { h with crowd := h.crowd.advance k timeoutMs next } := by
  have hpoint := Crowd.point?_advance h.crowd k timeoutMs next
  refine ⟨hroomy.settled, hpoint ▸ horderly, fun j hj => ?_, hlength.trans hroomy.length_slots⟩
  rw [hpoint] at hj
  by_cases hjk : j = k
  · subst hjk
    refine hroomy.listed j ?_
    rw [Crowd.point?, hk]
    rfl
  · rw [Function.update_of_ne hjk] at hj
    exact hroomy.listed j hj

theorem Roomy.crowd (hroomy : h.Roomy) {event : Crowd.Event}
    (hallowed : h.allows (.crowd event) = true) : (h.perform (.crowd event)).Roomy := by
  have hdoes := h.crowd.does_handle event
  rw [perform]
  generalize h.crowd.deed? event = deed, h.crowd.handle event = c at hdoes
  cases hdoes with
  | nothing => exact hroomy
  | @enter k timeoutMs hk hlt =>
    have hpoint : Crowd.point? { h.crowd with
          threads := Function.update h.crowd.threads k (some (timeoutMs, .entering)) } =
        Function.update h.crowd.point? k (some .entering) :=
      Crowd.point?_update h.crowd.threads timeoutMs (some .entering) _ _
    refine ⟨hroomy.settled, ?_, fun j hj => ?_, hroomy.length_slots⟩
    · show h.crowd.semaphore.Orderly (Crowd.point? _)
      rw [hpoint]
      refine hroomy.orderly.enter ?_
      rw [Crowd.point?, hk]
      rfl
    · rw [hpoint] at hj
      by_cases hjk : j = k
      · rw [hjk]
        exact hallowed
      · rw [Function.update_of_ne hjk] at hj
        exact hroomy.listed j hj
  | @step k timeoutMs p next hk hstep =>
    have hp := Crowd.point?_of_threads hk
    exact hroomy.advance hk
      (Take.orderly_of_step (t := { timeoutMs, wait := k }) hroomy.orderly hp hstep)
      (Take.length_step hstep)
  | @answer k timeoutMs p result next hk hinside hnext =>
    have hp := Crowd.point?_of_threads hk
    subst hnext
    exact hroomy.advance hk
      (Take.orderly_of_answered (t := { timeoutMs, wait := k }) hroomy.orderly hp hinside result)
      (Take.length_answered hinside ..)
  | give hunlocked =>
    exact ⟨hroomy.settled, hroomy.orderly.setAvailable true fun _ => hunlocked, hroomy.listed,
      hroomy.length_slots⟩
  | signal => exact ⟨hroomy.settled, hroomy.orderly, hroomy.listed, hroomy.length_slots⟩

theorem Roomy.tenancy (hroomy : h.Roomy) {event : TenancyEvent}
    (hallowed : h.allows (.tenancy event) = true) : (h.perform (.tenancy event)).Roomy := by
  refine ⟨Tenancy.settled_handle hroomy.settled event, hroomy.orderly, fun k hk => ?_, ?_⟩
  · have htaker := hroomy.listed k hk
    cases k with
    | zero => rfl
    | succ k =>
      refine isRunning_handle event (fun routineEnd heq => ?_) htaker
      rw [heq, allows, Option.isNone_iff_eq_none] at hallowed
      have hinside : (h.crowd.point? (k + 1)).isSome = true := hk
      rw [Crowd.point?, hallowed] at hinside
      cases hinside
  · exact hroomy.length_slots.trans (congrArg _ (Tenancy.config_handle h.tenancy event).symm)

theorem roomy_handle (hroomy : h.Roomy) (event : HouseholdEvent) : (h.handle event).Roomy := by
  rw [handle]
  split
  · rename_i hallowed
    cases event with
    | tenancy event => exact hroomy.tenancy hallowed
    | crowd event => exact hroomy.crowd hallowed
    | hear k => exact ⟨hroomy.settled, hroomy.orderly, hroomy.listed, hroomy.length_slots⟩
  · exact hroomy

theorem roomy_run (hroomy : h.Roomy) (events : List HouseholdEvent) : (h.run events).Roomy := by
  unfold run
  induction events generalizing h with
  | nil => exact hroomy
  | cons event events ih => exact ih (roomy_handle hroomy event)

theorem roomy_ofProcess {process : ProcessEnv} (hsettled : Tenancy.Settled { process })
    (initial : Bool) : (ofProcess process initial).Roomy := by
  refine ⟨hsettled, Semaphore.orderly_ofSize .., fun k hk => ?_, List.length_replicate⟩
  cases hk

/-! ## The queue suffices -/

/-- The wait queue serves all who take. -/
structure Served (h : Household) : Prop where
  /-- Whatever comes next, no take ends for want of a slot. -/
  no_overflow : ∀ event k v, h.crowd.deed? event ≠ some (.took k (.error (.broken v)))
  /-- A thread that comes to wait finds a free slot. -/
  room : ∀ k, h.crowd.point? k = some .entering → ∃ slot, h.crowd.semaphore.freeSlot? = some slot
  /-- A slot that is in use is that of one thread, which is in its routine and inside a take. -/
  owner : ∀ slot k, h.crowd.semaphore.slots[slot]? = some (some k) → h.isTaker k = true ∧
    ∀ j, (h.crowd.point? j).bind Take.Point.slot? = some slot ↔ j = k
  one_slot : ∀ k i j : Nat, h.crowd.semaphore.slots[i]? = some (some k) →
    h.crowd.semaphore.slots[j]? = some (some k) → i = j

theorem Roomy.no_overflow (hroomy : h.Roomy) (event : Crowd.Event) (k : NotificationId)
    (v : Violation) : h.crowd.deed? event ≠ some (.took k (.error (.broken v))) := by
  intro htook
  have hdoes := h.crowd.does_handle event
  rw [htook] at hdoes
  generalize hdeed : some (Crowd.Deed.took k (.error (.broken v))) = deed,
    h.crowd.handle event = c at hdoes
  cases hdoes with
  | nothing => cases hdeed
  | enter => cases hdeed
  | @step j timeoutMs p next hj hstep =>
    have hp := Crowd.point?_of_threads hj
    have hturn := Take.step_of_manned (t := { timeoutMs, wait := j }) hroomy.orderly hroomy.manned hp
      hstep
    rw [(Crowd.ended_eq_some_iff.1 hdeed.symm).2] at hturn
    cases hturn
  | @answer j timeoutMs p result next hj hinside hnext =>
    have hp := Crowd.point?_of_threads hj
    have hturn := Take.answered_of_manned (t := { timeoutMs, wait := j }) (w := h.crowd.wakes)
      hroomy.orderly hroomy.manned hp hinside result
    rw [hnext, (Crowd.ended_eq_some_iff.1 hdeed.symm).2] at hturn
    cases hturn
  | give => cases hdeed
  | signal => cases hdeed

theorem Roomy.served (hroomy : h.Roomy) : h.Served where
  no_overflow := hroomy.no_overflow
  room _ hk := hroomy.orderly.exists_freeSlot hroomy.manned hk
  owner slot k hslot := by
    have hk := (hroomy.orderly.slot_iff slot k).1 hslot
    obtain ⟨p, hp, -⟩ := Option.bind_eq_some_iff.1 hk
    refine ⟨hroomy.listed k (by rw [hp]; rfl), fun j => ⟨fun hj => ?_, fun heq => heq ▸ hk⟩⟩
    have hsame := ((hroomy.orderly.slot_iff slot j).2 hj).symm.trans hslot
    exact Option.some.inj (Option.some.inj hsame)
  one_slot _ _ _ hi hj := hroomy.orderly.eq_of_slots hi hj

/-- With a valid configuration the wait queue of a semaphore of a process serves its threads and one
visitor, whatever else happens. -/
theorem queue_suffices {config : Config} (hvalid : config.validate = .ok ()) (pid : Pid)
    (name : String) (clock : Option ClockClient) (ipc : Option IpcClient) (initial : Bool) :
    ∃ process, ProcessEnv.ofConfig pid name config clock ipc = .ok process ∧
      ∀ events, ((ofProcess process initial).run events).Served := by
  have hmax : 0 < config.maxThreadsPerProcess :=
    Nat.pos_of_ne_zero (Config.validate_eq_ok_iff.1 hvalid .maxThreadsPerProcess (by decide))
  obtain ⟨threads, free, alloc, hmade, -⟩ := ProcessEnv.ofConfig_spec hmax pid name clock ipc
  refine ⟨_, hmade, fun events => Roomy.served ?_⟩
  exact roomy_run (roomy_ofProcess (Tenancy.settled_ofConfig hmax hmade) initial) events

/-- The visitor waits, and so do one thread and, once that one has finished, another one in its place:
both slots are in use, and a take by any other is not possible. -/
theorem queue_suffices_recycled :
    let config : Config := { maxThreadsPerProcess := 1 }
    let events : List HouseholdEvent :=
      [.crowd (.take 0 (-1)), .crowd (.step 0), .tenancy (.spawn none), .crowd (.take 1 0),
        .crowd (.step 1), .tenancy (.leave 0 .panicked), .tenancy (.finish 0), .tenancy (.spawn none),
        .crowd (.take 1 (-1)), .crowd (.take 2 (-1)), .crowd (.step 2)]
    config.validate = .ok () ∧ ∃ process, ProcessEnv.ofConfig 1 "p" config none none = .ok process ∧
      let h := (ofProcess process false).run events
      h.crowd.semaphore.slots = [some 0, some 2] ∧ h.Served := by
  intro config events
  have hvalid : config.validate = .ok () := rfl
  obtain ⟨process, hmade, hserved⟩ := queue_suffices hvalid 1 "p" none none false
  have hslots : (ProcessEnv.ofConfig 1 "p" config none none).toOption.map (fun process =>
      ((ofProcess process false).run events).crowd.semaphore.slots) = some [some 0, some 2] := by
    decide +kernel
  rw [hmade] at hslots
  exact ⟨hvalid, process, hmade, Option.some.inj hslots, hserved events⟩

end Household

end Osal
