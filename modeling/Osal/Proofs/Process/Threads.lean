import Osal.ProcessEnv
import Osal.Proofs.Pool

/-!
# The threads of a process and their slots

A tenancy is a process with the threads that were spawned in it so far, numbered in the order of their
spawns. Spawns, routines that end and threads that give their slot back follow one another in any
order. After every event (`settled_handle`) the threads that have not finished hold the slots in use,
each one its own, so that they are never more than the process allows.
-/

namespace Osal

/-! ## What a process does with its slots -/

namespace ProcessEnv

variable {p : ProcessEnv} {config : Config} {free alloc : List Nat}

theorem ofConfig_spec (hmax : 0 < config.maxThreadsPerProcess) (pid : Pid) (name : String)
    (clock : Option ClockClient) (ipc : Option IpcClient) :
    ∃ threads free alloc, ofConfig pid name config clock ipc =
        .ok { pid, name, config, clock, ipc, threads } ∧
      threads.Sound free alloc ∧ threads.toList = [] ∧
      threads.capacity = config.maxThreadsPerProcess := by
  obtain ⟨threads, hmade, hsound, hcapacity, -⟩ :=
    Pool.ofFn_spec hmax (fun _ => "") (fun _ => "") (· == ·)
  refine ⟨threads, _, _, ?_, hsound, ?_, hcapacity⟩
  · rw [ofConfig, Pool.blank, hmade]
    rfl
  · rw [hsound.toList_eq, List.filterMap_nil]

theorem pos_of_ofConfig {pid : Pid} {name : String} {clock : Option ClockClient}
    {ipc : Option IpcClient} (hmade : ofConfig pid name config clock ipc = .ok p) :
    0 < config.maxThreadsPerProcess := by
  refine Nat.pos_of_ne_zero fun hzero => ?_
  rw [ofConfig, Pool.blank, Pool.ofFn, if_pos hzero] at hmade
  cases hmade

theorem spawn_cases (h : p.threads.Sound free alloc) (name : Option String) :
    (p.threads.toList.length = p.threads.capacity ∧
      p.spawn name = .error (.exhausted p.threads.capacity)) ∨
    (p.threads.toList.length < p.threads.capacity ∧ ∃ thread threads free' alloc',
      p.spawn name = .ok (thread, { p with threads }) ∧ thread.phase = .running ∧
        threads.Sound free' alloc' ∧
        threads.toList = p.threads.toList ++ [(thread.slot, thread.name)] ∧
        threads.capacity = p.threads.capacity) := by
  rcases h.allocate_cases with ⟨hfull, hallocate⟩ | ⟨hroom, i, rest, rfl, hallocate⟩
  · exact Or.inl ⟨hfull, by rw [spawn, hallocate]⟩
  · refine Or.inr ⟨hroom, { name := p.threadName name i, pid := p.pid, slot := p.threads.handleAt i },
      (p.threads.take i).modifyAt i fun _ => p.threadName name i, _, _, ?_, rfl, h.take.modifyAt _,
      h.toList_fill _, ?_⟩
    · rw [spawn, hallocate]
      rfl
    · simp

theorem finish_of_leaving (h : p.threads.Sound free alloc) {thread : Thread} {routineEnd : RoutineEnd}
    (hleaving : thread.phase = .leaving routineEnd) {front back : List (Handle × String)}
    {name : String} (hlist : p.threads.toList = front ++ (thread.slot, name) :: back) :
    ∃ threads free' alloc', p.finish thread =
        ({ thread with phase := .finished routineEnd }, { p with threads }) ∧
      threads.Sound free' alloc' ∧ threads.toList = front ++ back ∧
      threads.capacity = p.threads.capacity := by
  obtain ⟨hfree, hkept, free', alloc', hsound⟩ := h.free_of_split hlist
  refine ⟨_, free', alloc', ?_, hsound, hkept, Pool.capacity_release⟩
  simp only [finish, hleaving, releaseSlot, hfree]

theorem finish_of_not_leaving {thread : Thread}
    (h : ∀ routineEnd, thread.phase ≠ .leaving routineEnd) : p.finish thread = (thread, p) := by
  cases hphase : thread.phase with
  | leaving routineEnd => exact absurd hphase (h routineEnd)
  | running => simp only [finish, hphase]
  | finished routineEnd => simp only [finish, hphase]

theorem of_spawn {name : Option String} {thread : Thread} {p' : ProcessEnv}
    (h : p.spawn name = .ok (thread, p')) :
    thread.name = p.threadName name thread.slot.index ∧ ∃ threads, p' = { p with threads } := by
  rw [spawn] at h
  split at h
  · cases h
  · obtain ⟨rfl, rfl⟩ := Prod.mk.inj (Except.ok.inj h)
    exact ⟨rfl, _, rfl⟩

theorem process_finish (p : ProcessEnv) (thread : Thread) :
    ∃ threads, (p.finish thread).2 = { p with threads } := by
  rw [finish]
  split
  · rw [releaseSlot]
    split
    · exact ⟨_, rfl⟩
    · exact ⟨p.threads, rfl⟩
  · exact ⟨p.threads, rfl⟩

end ProcessEnv

/-! ## Tenancies -/

/-- A process and the threads spawned in it so far. -/
structure Tenancy where
  process : ProcessEnv
  threads : List Thread := []

/-- What can happen to the threads of a process. An event that is impossible at its moment changes
nothing. -/
inductive TenancyEvent where
  | spawn (name : Option String)
  /-- The routine of a thread returns or unwinds. -/
  | leave (thread : Nat) (routineEnd : RoutineEnd)
  /-- A thread that leaves gives its slot back. -/
  | finish (thread : Nat)

namespace Tenancy

def handle (t : Tenancy) : TenancyEvent → Tenancy
  | .spawn name =>
    match t.process.spawn name with
    | .error _ => t
    | .ok (thread, process) => { process, threads := t.threads ++ [thread] }
  | .leave k routineEnd =>
    match t.threads[k]? with
    | none => t
    | some thread =>
      if thread.phase = .running then { t with threads := t.threads.set k (thread.leave routineEnd) }
      else t
  | .finish k =>
    match t.threads[k]? with
    | none => t
    | some thread =>
      let (thread, process) := t.process.finish thread
      { process, threads := t.threads.set k thread }

def live (t : Tenancy) : List Thread := t.threads.filter fun thread => !thread.isFinished

theorem process_handle (t : Tenancy) (event : TenancyEvent) :
    ∃ threads, (t.handle event).process = { t.process with threads } := by
  cases event with
  | spawn name =>
    simp only [handle]
    split
    · exact ⟨t.process.threads, rfl⟩
    · rename_i hspawn
      exact (ProcessEnv.of_spawn hspawn).2
  | leave k routineEnd =>
    refine ⟨t.process.threads, ?_⟩
    simp only [handle]
    split
    · rfl
    · split <;> rfl
  | finish k =>
    simp only [handle]
    split
    · exact ⟨t.process.threads, rfl⟩
    · exact ProcessEnv.process_finish ..

@[simp] theorem config_handle (t : Tenancy) (event : TenancyEvent) :
    (t.handle event).process.config = t.process.config := by
  obtain ⟨threads, hprocess⟩ := t.process_handle event
  rw [hprocess]

/-- The threads that have not finished hold the slots in use, each one its own. -/
structure Settled (t : Tenancy) : Prop where
  pool : ∃ free alloc, t.process.threads.Sound free alloc
  slots : (t.live.map (·.slot)).Perm (t.process.threads.toList.map (·.1))
  capacity : t.process.threads.capacity = t.process.config.maxThreadsPerProcess

variable {t : Tenancy} {k : Nat}

theorem Settled.length_live (h : t.Settled) : t.live.length = t.process.threadCount := by
  obtain ⟨free, alloc, hpool⟩ := h.pool
  have hlen := h.slots.length_eq
  rw [List.length_map, List.length_map] at hlen
  rw [hlen, ProcessEnv.threadCount, hpool.size_eq]

theorem Settled.length_live_le (h : t.Settled) :
    t.live.length ≤ t.process.config.maxThreadsPerProcess := by
  obtain ⟨free, alloc, hpool⟩ := h.pool
  have hlen := hpool.length_add
  rw [← hpool.length_toList, ← hpool.size_eq, h.capacity] at hlen
  rw [h.length_live, ProcessEnv.threadCount]
  omega

theorem settled_ofConfig {config : Config} (hmax : 0 < config.maxThreadsPerProcess) {p : ProcessEnv}
    {pid : Pid} {name : String} {clock : Option ClockClient} {ipc : Option IpcClient}
    (hmade : ProcessEnv.ofConfig pid name config clock ipc = .ok p) :
    Settled { process := p } := by
  obtain ⟨threads, free, alloc, hspec, hsound, hempty, hcapacity⟩ :=
    ProcessEnv.ofConfig_spec hmax pid name clock ipc
  obtain rfl := Except.ok.inj (hspec.symm.trans hmade)
  refine ⟨⟨free, alloc, hsound⟩, ?_, hcapacity⟩
  rw [hempty]
  exact List.Perm.refl _

theorem split_of_thread {threads : List Thread} {thread : Thread} (hk : threads[k]? = some thread) :
    ∃ before after, threads = before ++ thread :: after ∧
      ∀ thread', threads.set k thread' = before ++ thread' :: after := by
  obtain ⟨hlt, hget⟩ := List.getElem?_eq_some_iff.1 hk
  refine ⟨threads.take k, threads.drop (k + 1), ?_, fun thread' => ?_⟩
  · rw [← hget, List.getElem_cons_drop, List.take_append_drop]
  · rw [List.set_eq_take_append_cons_drop, if_pos hlt]

theorem Settled.spawn (h : t.Settled) (name : Option String) :
    (t.handle (.spawn name)).Settled := by
  obtain ⟨free, alloc, hpool⟩ := h.pool
  rcases ProcessEnv.spawn_cases hpool name with ⟨-, hspawn⟩ |
    ⟨-, thread, threads, free', alloc', hspawn, hrunning, hsound, hlist, hcapacity⟩
  · simp only [handle, hspawn]
    exact h
  · simp only [handle, hspawn]
    refine ⟨⟨free', alloc', hsound⟩, ?_, hcapacity.trans h.capacity⟩
    have hlive : live { process := { t.process with threads }, threads := t.threads ++ [thread] } =
        t.live ++ [thread] := by
      simp [live, Thread.isFinished, hrunning]
    rw [hlive, hlist, List.map_append, List.map_append]
    exact h.slots.append_right _

theorem Settled.leave (h : t.Settled) (routineEnd : RoutineEnd) :
    (t.handle (.leave k routineEnd)).Settled := by
  cases hk : t.threads[k]? with
  | none =>
    simp only [handle, hk]
    exact h
  | some thread =>
    by_cases hrunning : thread.phase = .running
    · simp only [handle, hk, if_pos hrunning]
      refine ⟨h.pool, ?_, h.capacity⟩
      obtain ⟨before, after, hsplit, hset⟩ := split_of_thread hk
      have hslots := h.slots
      rw [live, hsplit] at hslots
      rw [live, hset]
      simpa [Thread.isFinished, Thread.leave, hrunning, List.filter_cons] using hslots
    · simp only [handle, hk, if_neg hrunning]
      exact h

theorem Settled.finish (h : t.Settled) : (t.handle (.finish k)).Settled := by
  cases hk : t.threads[k]? with
  | none =>
    simp only [handle, hk]
    exact h
  | some thread =>
    by_cases hleaving : ∃ routineEnd, thread.phase = .leaving routineEnd
    · obtain ⟨routineEnd, hleaving⟩ := hleaving
      obtain ⟨free, alloc, hpool⟩ := h.pool
      obtain ⟨before, after, hsplit, hset⟩ := split_of_thread hk
      have hslots := h.slots
      rw [live, hsplit, List.filter_append, List.filter_cons_of_pos
        (by simp [Thread.isFinished, hleaving]), List.map_append, List.map_cons] at hslots
      -- the slot that the thread gives back is in use
      obtain ⟨⟨_, name⟩, hentry, rfl⟩ := List.mem_map.1
        (hslots.mem_iff.1 (List.mem_append_right _ List.mem_cons_self))
      obtain ⟨front, back, hlist⟩ := List.append_of_mem hentry
      obtain ⟨threads, free', alloc', hfinish, hsound, hkept, hcapacity⟩ :=
        ProcessEnv.finish_of_leaving hpool hleaving hlist
      simp only [handle, hk, hfinish]
      refine ⟨⟨free', alloc', hsound⟩, ?_, hcapacity.trans h.capacity⟩
      rw [hlist, List.map_append, List.map_cons] at hslots
      rw [live, hset, List.filter_append, List.filter_cons_of_neg (by simp [Thread.isFinished]),
        List.map_append, hkept, List.map_append]
      exact (List.perm_cons _).1 (List.perm_middle.symm.trans (hslots.trans List.perm_middle))
    · have hfinish := ProcessEnv.finish_of_not_leaving (p := t.process)
        fun routineEnd heq => hleaving ⟨routineEnd, heq⟩
      have hset : t.threads.set k thread = t.threads := by
        obtain ⟨hlt, hget⟩ := List.getElem?_eq_some_iff.1 hk
        rw [← hget, List.set_getElem_self]
      simp only [handle, hk, hfinish, hset]
      exact h

theorem settled_handle (h : t.Settled) (event : TenancyEvent) : (t.handle event).Settled := by
  cases event with
  | spawn name => exact h.spawn name
  | leave k routineEnd => exact h.leave routineEnd
  | finish k => exact h.finish

end Tenancy

end Osal
