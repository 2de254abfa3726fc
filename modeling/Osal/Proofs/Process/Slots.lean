import Mathlib.Logic.Function.Basic
import Osal.Proofs.Process.Threads

/-!
# What becomes of a thread slot

A roster is a tenancy with the handles of its threads, which somebody may hold, join or drop at any time,
and a history of the slots that were given back and the threads that were joined. `slots_conserved`: the
process counts just the threads that have not finished, a spawn is refused just if they are as many as
the process allows, and each thread gives back its own slot, once and in time.
-/

namespace Osal

/-- What is told of the threads of a process. -/
inductive RosterDeed where
  /-- A thread gave a slot back, and whether the process accepted that. -/
  | released (thread : Nat) (slot : Handle) (accepted : Bool)
  | joined (thread : Nat) (result : Except Error Int32)

/-- Whether a thread gives a slot back. -/
def RosterDeed.releases (k : Nat) : RosterDeed → Bool
  | .released thread _ _ => thread == k
  | .joined .. => false

/-- The threads of a process, and the handles they are joined through. -/
structure Roster where
  tenancy : Tenancy
  /-- Whether somebody holds the handle of a thread. -/
  held : Nat → Bool := fun _ => false
  history : List RosterDeed := []

/-- What can happen to threads and to their handles. -/
inductive RosterEvent where
  | thread (event : TenancyEvent)
  /-- Join a thread through its handle. That blocks as long as the thread has not finished. -/
  | join (thread : Nat)
  | drop (thread : Nat)

namespace Tenancy

def isFinished (t : Tenancy) (k : Nat) : Bool := t.threads[k]?.any Thread.isFinished

/-- The slots that an event gives back. -/
def deeds (t : Tenancy) : TenancyEvent → List RosterDeed
  | .finish k =>
    match t.threads[k]? with
    | none => []
    | some thread =>
      match thread.phase with
      | .leaving _ => [.released k thread.slot (t.process.threads.free thread.slot).isOk]
      | _ => []
  | _ => []

end Tenancy

namespace Roster

def handle (r : Roster) : RosterEvent → Roster
  | .thread event =>
    let tenancy := r.tenancy.handle event
    let spawned := r.tenancy.threads.length < tenancy.threads.length
    { tenancy
      held := if spawned then Function.update r.held r.tenancy.threads.length true else r.held
      history := r.tenancy.deeds event ++ r.history }
  | .join k =>
    if r.held k then
      match r.tenancy.threads[k]?.bind Thread.join with
      | some result =>
        { r with held := Function.update r.held k false, history := .joined k result :: r.history }
      | none => r
    else r
  | .drop k => { r with held := Function.update r.held k false }

def run (r : Roster) (events : List RosterEvent) : Roster := events.foldl handle r

end Roster

/-! ## What one event does to the threads -/

namespace Tenancy

/-- The threads after an event, and the slots it gave back. -/
inductive Change (t : Tenancy) : List Thread → List RosterDeed → Prop where
  | quiet : Change t t.threads []
  | enter {thread : Thread} (hunfinished : thread.isFinished = false) :
      Change t (t.threads ++ [thread]) []
  | leave {k : Nat} {thread thread' : Thread} (hk : t.threads[k]? = some thread)
      (hunfinished : thread.isFinished = false) (hslot : thread'.slot = thread.slot)
      (hleaving : thread'.isFinished = false) : Change t (t.threads.set k thread') []
  | finish {k : Nat} {thread thread' : Thread} (hk : t.threads[k]? = some thread)
      (hunfinished : thread.isFinished = false) (hslot : thread'.slot = thread.slot)
      (hfinished : thread'.isFinished = true) :
      Change t (t.threads.set k thread') [.released k thread.slot true]

variable {t : Tenancy} {k : Nat} {thread : Thread} {threads : List Thread} {deeds : List RosterDeed}

theorem Settled.isLive_slot (h : t.Settled) (hk : t.threads[k]? = some thread)
    (hunfinished : thread.isFinished = false) :
    t.process.threads.isLive thread.slot = true := by
  obtain ⟨free, alloc, hpool⟩ := h.pool
  have hlive : thread ∈ t.live := List.mem_filter.2 ⟨List.mem_of_getElem? hk, by simp [hunfinished]⟩
  obtain ⟨entry, hentry, hslot⟩ :=
    List.mem_map.1 (h.slots.mem_iff.1 (List.mem_map_of_mem (f := (·.slot)) hlive))
  exact hslot ▸ (hpool.isLive_of_mem hentry).1

theorem change_handle (h : t.Settled) (event : TenancyEvent) :
    t.Change (t.handle event).threads (t.deeds event) := by
  cases event with
  | spawn name =>
    obtain ⟨free, alloc, hpool⟩ := h.pool
    rcases ProcessEnv.spawn_cases hpool name with ⟨-, hspawn⟩ |
      ⟨-, thread, threads, -, -, hspawn, hrunning, -⟩
    · simp only [handle, hspawn]
      exact .quiet
    · simp only [handle, hspawn]
      exact .enter (by simp [Thread.isFinished, hrunning])
  | leave k routineEnd =>
    cases hk : t.threads[k]? with
    | none =>
      simp only [handle, hk]
      exact .quiet
    | some thread =>
      by_cases hrunning : thread.phase = .running
      · simp only [handle, hk, if_pos hrunning]
        exact .leave hk (by simp [Thread.isFinished, hrunning]) rfl rfl
      · simp only [handle, hk, if_neg hrunning]
        exact .quiet
  | finish k =>
    cases hk : t.threads[k]? with
    | none =>
      simp only [handle, Tenancy.deeds, hk]
      exact .quiet
    | some thread =>
      obtain ⟨hlt, hget⟩ := List.getElem?_eq_some_iff.1 hk
      have hset : t.threads.set k thread = t.threads := by rw [← hget, List.set_getElem_self]
      cases hphase : thread.phase with
      | leaving routineEnd =>
        have hunfinished : thread.isFinished = false := by rw [Thread.isFinished, hphase]
        have haccepted : t.process.threads.free thread.slot =
            .ok (t.process.threads.release thread.slot.index) :=
          if_pos (h.isLive_slot hk hunfinished)
        simp only [handle, Tenancy.deeds, hk, hphase, ProcessEnv.finish, haccepted]
        exact .finish hk hunfinished rfl rfl
      | running =>
        simp only [handle, Tenancy.deeds, hk, hphase, ProcessEnv.finish, hset]
        exact .quiet
      | finished routineEnd =>
        simp only [handle, Tenancy.deeds, hk, hphase, ProcessEnv.finish, hset]
        exact .quiet

theorem Change.keeps (h : t.Change threads deeds) (hk : t.threads[k]? = some thread) :
    ∃ thread', threads[k]? = some thread' ∧ thread'.slot = thread.slot ∧
      (thread.isFinished = true → thread' = thread) := by
  have hlt := (List.getElem?_eq_some_iff.1 hk).1
  have hset : ∀ {j : Nat} {old new : Thread}, t.threads[j]? = some old → old.isFinished = false →
      new.slot = old.slot → ∃ thread', (t.threads.set j new)[k]? = some thread' ∧
        thread'.slot = thread.slot ∧ (thread.isFinished = true → thread' = thread) := by
    intro j old new hj hunfinished hslot
    by_cases hjk : j = k
    · subst hjk
      obtain rfl := Option.some.inj (hj.symm.trans hk)
      refine ⟨new, by rw [List.getElem?_set_self hlt], hslot, fun hfinished => ?_⟩
      rw [hunfinished] at hfinished
      cases hfinished
    · exact ⟨thread, by rw [List.getElem?_set_ne hjk, hk], rfl, fun _ => rfl⟩
  cases h with
  | quiet => exact ⟨thread, hk, rfl, fun _ => rfl⟩
  | enter hunfinished =>
    exact ⟨thread, by rw [List.getElem?_append_left hlt, hk], rfl, fun _ => rfl⟩
  | leave hj hunfinished hslot hleaving => exact hset hj hunfinished hslot
  | finish hj hunfinished hslot hfinished => exact hset hj hunfinished hslot

/-- A thread gives its slot back when it finishes, and at no other time. -/
theorem Change.releases (h : t.Change threads deeds) (k : Nat) :
    (threads[k]?.any Thread.isFinished).toNat =
      (t.isFinished k).toNat + deeds.countP (·.releases k) := by
  have hset : ∀ {j : Nat} {old new : Thread}, t.threads[j]? = some old → old.isFinished = false →
      ((t.threads.set j new)[k]?.any Thread.isFinished).toNat =
        (t.isFinished k).toNat + if j = k then new.isFinished.toNat else 0 := by
    intro j old new hj hunfinished
    by_cases hjk : j = k
    · subst hjk
      have hlt := (List.getElem?_eq_some_iff.1 hj).1
      simp [isFinished, hj, hunfinished, List.getElem?_set_self hlt]
    · simp [isFinished, List.getElem?_set_ne hjk, hjk]
  cases h with
  | quiet => rfl
  | @enter thread hunfinished =>
    rw [isFinished, List.getElem?_append]
    split
    · rfl
    · rename_i hge
      have hout : t.threads[k]? = none := List.getElem?_eq_none (Nat.le_of_not_lt hge)
      rw [hout]
      cases k - t.threads.length with
      | zero => simp [hunfinished]
      | succ n => rfl
  | leave hj hunfinished hslot hleaving => simp [hset hj hunfinished, hleaving]
  | @finish j old new hj hunfinished hslot hfinished =>
    simp [hset hj hunfinished, hfinished, RosterDeed.releases, List.countP_cons]

theorem Change.accepted (h : t.Change threads deeds) {slot : Handle} {accepted : Bool}
    (hmem : .released k slot accepted ∈ deeds) :
    accepted = true ∧ ∃ thread, threads[k]? = some thread ∧ thread.slot = slot := by
  cases h with
  | quiet => cases hmem
  | enter hunfinished => cases hmem
  | leave hk hunfinished hslot hleaving => cases hmem
  | finish hk hunfinished hslot hfinished =>
    obtain ⟨rfl, rfl, rfl⟩ := RosterDeed.released.inj (List.mem_singleton.1 hmem)
    exact ⟨rfl, _, List.getElem?_set_self (List.getElem?_eq_some_iff.1 hk).1, hslot⟩

theorem Change.not_joined (h : t.Change threads deeds) {result : Except Error Int32} :
    .joined k result ∉ deeds := by
  cases h <;> simp

end Tenancy

/-! ## Every run -/

namespace Roster

/-- What the history says of the threads. -/
structure Recorded (r : Roster) : Prop where
  /-- What a thread gives back is its slot, and the process finds that still in use. -/
  accepted : ∀ {k slot accepted}, .released k slot accepted ∈ r.history → accepted = true ∧
    ∃ thread, r.tenancy.threads[k]? = some thread ∧ thread.slot = slot
  /-- It has done so once if it has finished, and not at all before. -/
  once : ∀ k, r.history.countP (·.releases k) = (r.tenancy.isFinished k).toNat
  /-- A thread that was joined has finished, with that result. -/
  joined : ∀ {k result}, .joined k result ∈ r.history → ∃ thread,
    r.tenancy.threads[k]? = some thread ∧ thread.isFinished = true ∧ thread.join = some result

/-- What holds of the slots of a process that allows `max` threads. -/
structure Conserved (r : Roster) (max : Nat) : Prop extends Recorded r where
  /-- The process counts the threads that have not finished. -/
  count : r.tenancy.process.threadCount = r.tenancy.live.length
  refuses : ∀ name, r.tenancy.process.spawn name = .error (.exhausted max) ↔
    r.tenancy.live.length = max
  /-- A spawn fails for no other reason. -/
  cause : ∀ name e, r.tenancy.process.spawn name = .error e → e = .exhausted max
  unchanged : ∀ name, r.tenancy.live.length = max → r.handle (.thread (.spawn name)) = r
  /-- Each thread that has not finished has a slot of its own. -/
  occupied : ∀ {k : Nat} {thread : Thread}, r.tenancy.threads[k]? = some thread →
    thread.isFinished = false → r.tenancy.process.threads.isLive thread.slot = true
  distinct : (r.tenancy.live.map (·.slot)).Nodup

structure Kept (r : Roster) : Prop extends Recorded r where
  settled : r.tenancy.Settled

variable {r : Roster} {max k : Nat}

theorem isFinished_of_join {thread : Thread} {result : Except Error Int32}
    (h : thread.join = some result) : thread.isFinished = true := by
  rw [Thread.join] at h
  rw [Thread.isFinished]
  cases hphase : thread.phase with
  | finished routineEnd => rfl
  | running =>
    rw [hphase] at h
    cases h
  | leaving routineEnd =>
    rw [hphase] at h
    cases h

theorem Kept.thread (h : r.Kept) (event : TenancyEvent) : (r.handle (.thread event)).Kept := by
  have hchange := Tenancy.change_handle h.settled event
  refine ⟨⟨fun {k slot accepted} hmem => ?_, fun k => ?_, fun {k result} hmem => ?_⟩,
    Tenancy.settled_handle h.settled event⟩
  · rcases List.mem_append.1 hmem with hnew | hold
    · exact hchange.accepted hnew
    · obtain ⟨haccepted, thread, hk, rfl⟩ := h.accepted hold
      obtain ⟨thread', hk', hslot, -⟩ := hchange.keeps hk
      exact ⟨haccepted, thread', hk', hslot⟩
  · show (r.tenancy.deeds event ++ r.history).countP (·.releases k) = _
    rw [List.countP_append, h.once, Nat.add_comm]
    exact (hchange.releases k).symm
  · rcases List.mem_append.1 hmem with hnew | hold
    · exact absurd hnew hchange.not_joined
    · obtain ⟨thread, hk, hfinished, hjoin⟩ := h.joined hold
      obtain ⟨thread', hk', -, hsame⟩ := hchange.keeps hk
      obtain rfl := hsame hfinished
      exact ⟨thread', hk', hfinished, hjoin⟩

theorem Kept.join (h : r.Kept) (k : Nat) : (r.handle (.join k)).Kept := by
  rw [handle]
  split
  · split
    · rename_i result hresult
      obtain ⟨thread, hk, hjoin⟩ := Option.bind_eq_some_iff.1 hresult
      refine ⟨⟨fun hmem => ?_, fun j => ?_, fun {j result'} hmem => ?_⟩, h.settled⟩
      · exact h.accepted ((List.mem_cons.1 hmem).resolve_left nofun)
      · rw [List.countP_cons_of_neg (by simp [RosterDeed.releases])]
        exact h.once j
      · rcases List.mem_cons.1 hmem with hnew | hold
        · obtain ⟨rfl, rfl⟩ := RosterDeed.joined.inj hnew
          exact ⟨thread, hk, isFinished_of_join hjoin, hjoin⟩
        · exact h.joined hold
    · exact h
  · exact h

theorem Kept.handle (h : r.Kept) (event : RosterEvent) : (r.handle event).Kept := by
  cases event with
  | thread event => exact h.thread event
  | join k => exact h.join k
  | drop k => exact ⟨⟨h.accepted, h.once, h.joined⟩, h.settled⟩

theorem Kept.run (h : r.Kept) (events : List RosterEvent) : (r.run events).Kept := by
  unfold Roster.run
  induction events generalizing r with
  | nil => exact h
  | cons event events ih => exact ih (h.handle event)

@[simp] theorem config_handle (r : Roster) (event : RosterEvent) :
    (r.handle event).tenancy.process.config = r.tenancy.process.config := by
  cases event with
  | thread event => exact Tenancy.config_handle r.tenancy event
  | join k =>
    rw [handle]
    split
    · split <;> rfl
    · rfl
  | drop k => rfl

@[simp] theorem config_run (r : Roster) (events : List RosterEvent) :
    (r.run events).tenancy.process.config = r.tenancy.process.config := by
  unfold run
  induction events generalizing r with
  | nil => rfl
  | cons event events ih => exact (ih _).trans (config_handle r event)

theorem Kept.conserved (h : r.Kept) :
    r.Conserved r.tenancy.process.config.maxThreadsPerProcess := by
  obtain ⟨free, alloc, hpool⟩ := h.settled.pool
  have hcapacity := h.settled.capacity
  have hcount : r.tenancy.process.threads.toList.length = r.tenancy.live.length := by
    rw [h.settled.length_live, ProcessEnv.threadCount, hpool.size_eq]
  have hcases := fun name => ProcessEnv.spawn_cases hpool name
  rw [hcount, hcapacity] at hcases
  refine {
    toRecorded := h.toRecorded
    count := h.settled.length_live.symm
    refuses := fun name => ?_
    cause := fun name e herror => ?_
    unchanged := fun name hfull => ?_
    occupied := h.settled.isLive_slot
    distinct := h.settled.slots.nodup_iff.2 hpool.nodup_handles }
  · rcases hcases name with ⟨hfull, hspawn⟩ | ⟨hroom, thread, threads, -, -, hspawn, -⟩
    · exact ⟨fun _ => hfull, fun _ => hspawn⟩
    · refine ⟨fun herror => ?_, fun hfull => absurd hfull (Nat.ne_of_lt hroom)⟩
      rw [hspawn] at herror
      cases herror
  · rcases hcases name with ⟨-, hspawn⟩ | ⟨-, thread, threads, -, -, hspawn, -⟩
    · rw [hspawn] at herror
      exact (Except.error.inj herror).symm
    · rw [hspawn] at herror
      cases herror
  · rcases hcases name with ⟨-, hspawn⟩ | ⟨hroom, -⟩
    · have hsame : r.tenancy.handle (.spawn name) = r.tenancy := by simp only [Tenancy.handle, hspawn]
      simp only [Roster.handle, hsame, Nat.lt_irrefl, if_false]
      rfl
    · exact absurd hfull (Nat.ne_of_lt hroom)

/-- The slots of a process are conserved in every run of spawns, ends of routines, joins and drops. -/
theorem slots_conserved {config : Config} (hmax : 0 < config.maxThreadsPerProcess) (pid : Pid)
    (name : String) (clock : Option ClockClient) (ipc : Option IpcClient) :
    ∃ p, ProcessEnv.ofConfig pid name config clock ipc = .ok p ∧ ∀ events : List RosterEvent,
      (run { tenancy := { process := p } } events).Conserved config.maxThreadsPerProcess := by
  obtain ⟨threads, -, -, hmade, -⟩ := ProcessEnv.ofConfig_spec hmax pid name clock ipc
  refine ⟨_, hmade, fun events => ?_⟩
  have hstart : Kept { tenancy := { process := _ } } :=
    ⟨⟨nofun, fun _ => rfl, nofun⟩, Tenancy.settled_ofConfig hmax hmade⟩
  have hkept := (hstart.run events).conserved
  rw [config_run] at hkept
  exact hkept

/-- A thread whose handle was dropped unwinds, and a second one runs in its slot. -/
theorem slots_conserved_reused :
    let config : Config := { maxThreadsPerProcess := 1 }
    let events : List RosterEvent :=
      [.thread (.spawn none), .drop 0, .thread (.leave 0 .panicked), .thread (.finish 0), .join 0,
        .thread (.spawn (some "next")), .thread (.finish 0)]
    0 < config.maxThreadsPerProcess ∧
      ∃ p, ProcessEnv.ofConfig 3 "p" config none none = .ok p ∧
        let r := run { tenancy := { process := p } } events
        r.tenancy.live.map (·.slot) = [⟨0, 1⟩] ∧ r.tenancy.process.threadCount = 1 ∧
          r.tenancy.process.spawn none = .error (.exhausted 1) ∧
          r.history.countP (·.releases 0) = 1 := by
  intro config events
  have hmax : 0 < config.maxThreadsPerProcess := by decide
  obtain ⟨p, hmade, hruns⟩ := slots_conserved hmax 3 "p" none none
  have hlast : (ProcessEnv.ofConfig 3 "p" config none none).toOption.map (fun p =>
      let r := run { tenancy := { process := p } } events
      (r.tenancy.live.map (·.slot), r.tenancy.isFinished 0)) = some ([⟨0, 1⟩], true) := by
    decide +kernel
  rw [hmade] at hlast
  obtain ⟨hlive, hfinished⟩ := Prod.mk.inj (Option.some.inj hlast)
  have hconserved := hruns events
  have hcount : (run { tenancy := { process := p } } events).tenancy.live.length = 1 := by
    rw [← List.length_map (·.slot), hlive]
    rfl
  refine ⟨hmax, p, hmade, hlive, hconserved.count.trans hcount, (hconserved.refuses none).2 hcount, ?_⟩
  rw [hconserved.once, hfinished]
  rfl

end Roster

end Osal
