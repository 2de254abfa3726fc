import Osal.Proofs.Ipc.Registry
import Osal.Proofs.Process.Threads
import Osal.System

/-!
# The process table and the buffer registry

`System.Sound s`: both tables of `s` are sound and bounded alike. Then a creation and a destruction are
changes to the list of processes and the list of clients, and each has three cases: refused by the
table, refused by the registry, and done (`create_cases`, `destroy_cases`).

A creation that the registry refuses gives its table slot back. A destruction that the registry refuses
has already taken the process out of the table.
-/

namespace Osal

namespace System

variable {s : System} {config : Config} {pid : Pid}

/-- Both tables are sound and bounded as the configuration says, and processes can have threads. -/
structure Sound (s : System) : Prop where
  records : ∃ free alloc, s.records.Sound free alloc
  ipc : s.ipc.Sound
  records_capacity : s.records.capacity = s.config.maxUserProcesses
  ipc_capacity : s.ipc.clients.capacity = s.config.maxUserProcesses
  threads_pos : 0 < s.config.maxThreadsPerProcess

theorem Sound.processCount_eq (h : s.Sound) : s.processCount = s.processes.length := by
  obtain ⟨free, alloc, hrecords⟩ := h.records
  rw [processCount, hrecords.size_eq, processes, List.length_map]

theorem Sound.processName_eq (h : s.Sound) (pid : Pid) :
    s.processName pid = (s.processes.find? fun record => record.pid == pid).map (·.name) := by
  obtain ⟨free, alloc, hrecords⟩ := h.records
  have hlist : s.processes.find? (fun record => record.pid == pid) =
      (s.records.toList.find? fun entry => entry.2.pid == pid).map (·.2) := by
    rw [processes, List.find?_map]
    rfl
  rw [processName, find, Pool.findBy, hlist]
  cases hfound : s.records.toList.find? fun entry => entry.2.pid == pid with
  | none => rfl
  | some entry =>
    have hget := hrecords.get?_of_mem (List.mem_of_find?_eq_some hfound)
    simp only [Option.map_some, Option.bind_some, hget]

theorem ofConfig_spec (hmax : 0 < config.maxUserProcesses) (hthreads : 0 < config.maxThreadsPerProcess) :
    ∃ s, ofConfig config = .ok s ∧ s.Sound ∧ s.config = config ∧ s.processes = [] ∧
      s.ipc.toList = [] ∧ s.nextPid = rootPid + 1 := by
  obtain ⟨ipc, hregistry, hipc, hclients, hipccapacity⟩ :=
    IpcRegistry.ofConfig_spec hmax (some (clockOf rootPid))
  obtain ⟨records, htable, hrecords, hcapacity, -⟩ := Pool.ofFn_spec hmax
    (fun _ => ({ pid := rootPid, name := "" } : ProcessRecord)) (fun _ => { pid := rootPid, name := "" })
    (· == ·)
  refine ⟨{ config, records, ipc }, ?_, ⟨⟨_, _, hrecords⟩, hipc, hcapacity, hipccapacity, hthreads⟩, rfl,
    ?_, hclients, rfl⟩
  · rw [ofConfig, hregistry, Pool.blank, htable]
    rfl
  · rw [processes, hrecords.toList_eq]
    rfl

/-! ## Creating a process -/

theorem Sound.environment_isOk (h : s.Sound) (name : String) (pid : Pid) (client : IpcClient) :
    ∃ process, s.environment name pid client = .ok process ∧ process.pid = pid ∧
      process.name = name ∧ process.ipc = some client := by
  obtain ⟨threads, free, alloc, hmade, -⟩ :=
    ProcessEnv.ofConfig_spec h.threads_pos pid name (some (clockOf pid)) (some client)
  exact ⟨_, hmade, rfl, rfl, rfl⟩

theorem create_cases (h : s.Sound) (buffers : Array SharedBuffer) (name : String) :
    (s.processes.length = s.config.maxUserProcesses ∧ s.createProcess buffers name =
      (.error (.refused (.exhausted s.config.maxUserProcesses)), s, buffers)) ∨
    (s.processes.length < s.config.maxUserProcesses ∧
      s.ipc.toList.length = s.config.maxUserProcesses ∧ ∃ s', s.createProcess buffers name =
        (.error (.refused (.exhausted s.config.maxUserProcesses)), s', buffers) ∧ s'.Sound ∧
        s'.config = s.config ∧ s'.processes = s.processes ∧ s'.ipc = s.ipc ∧ s'.nextPid = s.nextPid) ∨
    (s.processes.length < s.config.maxUserProcesses ∧
      s.ipc.toList.length < s.config.maxUserProcesses ∧ ∃ process client s' buffers',
        s.createProcess buffers name = (.ok process, s', buffers') ∧ process.pid = s.nextPid ∧
        process.name = name ∧ process.ipc = some client ∧ client.id = s.nextPid ∧ s'.Sound ∧
        s'.config = s.config ∧ s'.processes = s.processes ++ [{ pid := s.nextPid, name }] ∧
        s'.ipc.toList = s.ipc.toList ++ [client] ∧ s'.nextPid = s.nextPid + 1) := by
  obtain ⟨free, alloc, hrecords⟩ := h.records
  have hlen : s.processes.length = s.records.toList.length := List.length_map _
  rw [hlen, ← h.records_capacity]
  rcases hrecords.allocate_cases with ⟨hfull, hallocate⟩ | ⟨hroom, i, rest, rfl, hallocate⟩
  · refine Or.inl ⟨hfull, ?_⟩
    simp only [createProcess, enroll, hallocate]
  · right
    have hcapacity : s.records.capacity = s.ipc.clients.capacity :=
      h.records_capacity.trans h.ipc_capacity.symm
    rcases IpcRegistry.create_cases h.ipc buffers s.nextPid with ⟨hipcfull, hcreate⟩ |
      ⟨hipcroom, client, ipc, buffers', hcreate, hid, hipc, hclients, hipccapacity⟩
    · -- the slot is given back, and the entries are those of before
      obtain ⟨records, hback, hentries, hkept, hsound⟩ := hrecords.free_taken
      refine Or.inl ⟨hroom, hipcfull.trans hcapacity.symm, { s with records }, ?_,
        ⟨hsound, h.ipc, hkept.trans h.records_capacity, h.ipc_capacity, h.threads_pos⟩, rfl, ?_, rfl,
        rfl⟩
      · rw [← hcapacity] at hcreate
        simp only [createProcess, enroll, hallocate, hcreate, hback]
        rfl
      · rw [processes, hentries, processes]
    · let records := (s.records.take i).modifyAt i fun _ => { pid := s.nextPid, name }
      let s' : System := { s with records, nextPid := s.nextPid + 1, ipc }
      have hkept : records.capacity = s.records.capacity := by
        rw [Pool.capacity_modifyAt, Pool.capacity_take]
      have hsound : s'.Sound := ⟨⟨_, _, hrecords.take.modifyAt _⟩, hipc,
        hkept.trans h.records_capacity, hipccapacity.trans h.ipc_capacity, h.threads_pos⟩
      obtain ⟨process, hmade, hpid, hname, hproc⟩ := hsound.environment_isOk name s.nextPid client
      refine Or.inr ⟨hroom, hcapacity ▸ hipcroom, process, client, s', buffers', ?_, hpid, hname, hproc,
        hid, hsound, rfl, ?_, hclients, rfl⟩
      · have henroll : s.enroll buffers name = (.ok (s.nextPid, client), s', buffers') := by
          simp only [enroll, hallocate, hcreate]
          rfl
        simp only [createProcess, henroll, hmade]
      · rw [processes, show s'.records.toList = _ from hrecords.toList_fill _, List.map_append]
        rfl

/-! ## Destroying a process -/

theorem find_cases (h : s.Sound) (pid : Pid) :
    ((∀ record ∈ s.processes, record.pid ≠ pid) ∧ s.find pid = none) ∨
    (∃ front record back slot records, s.processes = front ++ record :: back ∧ record.pid = pid ∧
      (∀ earlier ∈ front, earlier.pid ≠ pid) ∧ s.find pid = some slot ∧
      s.records.free slot = .ok records ∧ records.toList.map (·.2) = front ++ back ∧
      records.capacity = s.records.capacity ∧ ∃ free alloc, records.Sound free alloc) := by
  obtain ⟨free, alloc, hrecords⟩ := h.records
  cases hfind : s.find pid with
  | none =>
    refine Or.inl ⟨fun record hrecord heq => ?_, rfl⟩
    obtain ⟨entry, hentry, rfl⟩ := List.mem_map.1 hrecord
    have hnot := Pool.findBy_eq_none_iff.1 hfind entry hentry
    rw [heq, beq_self_eq_true] at hnot
    cases hnot
  | some slot =>
    obtain ⟨front, record, back, hlist, hpid, hfront⟩ := Pool.split_of_findBy hfind
    obtain ⟨hfree, hkept, hsound⟩ := hrecords.free_of_split hlist
    refine Or.inr ⟨front.map (·.2), record, back.map (·.2), slot, _, ?_, by simpa using hpid, ?_, rfl,
      hfree, ?_, Pool.capacity_release, hsound⟩
    · rw [processes, hlist, List.map_append, List.map_cons]
    · intro earlier hearlier
      obtain ⟨entry, hentry, rfl⟩ := List.mem_map.1 hearlier
      simpa using hfront entry hentry
    · rw [hkept, List.map_append]

/-- A destruction is refused by the table, refused by the registry after the process is gone from the
table, or done. -/
theorem destroy_cases (h : s.Sound) (pid : Pid) :
    ((∀ record ∈ s.processes, record.pid ≠ pid) ∧ s.destroyProcess pid = (.error .notFound, s)) ∨
    (∃ front record back s', s.processes = front ++ record :: back ∧ record.pid = pid ∧
      (∀ earlier ∈ front, earlier.pid ≠ pid) ∧ s'.Sound ∧ s'.config = s.config ∧
      s'.processes = front ++ back ∧ s'.nextPid = s.nextPid ∧
      (((∀ client ∈ s.ipc.toList, client.id ≠ pid) ∧
          s.destroyProcess pid = (.error .notFound, s') ∧ s'.ipc = s.ipc) ∨
        (∃ before client after, s.ipc.toList = before ++ client :: after ∧ client.id = pid ∧
          (∀ earlier ∈ before, earlier.id ≠ pid) ∧ s.destroyProcess pid = (.ok (), s') ∧
          s'.ipc.toList = before ++ after))) := by
  rcases find_cases h pid with ⟨hnone, hfind⟩ |
    ⟨front, record, back, slot, records, hsplit, hpid, hfront, hfind, hfree, hkept, hcapacity, hsound⟩
  · exact Or.inl ⟨hnone, by simp only [destroyProcess, hfind]⟩
  · right
    rcases IpcRegistry.remove_cases h.ipc pid with ⟨hnone, hremove⟩ |
      ⟨before, client, after, ipc, hclients, hid, hbefore, hremove, hipc, hrest, hipccapacity⟩
    · refine ⟨front, record, back, { s with records }, hsplit, hpid, hfront,
        ⟨hsound, h.ipc, hcapacity.trans h.records_capacity, h.ipc_capacity, h.threads_pos⟩, rfl, hkept,
        rfl, Or.inl ⟨hnone, ?_, rfl⟩⟩
      simp only [destroyProcess, hfind, hfree, hremove]
    · refine ⟨front, record, back, { s with records, ipc }, hsplit, hpid, hfront,
        ⟨hsound, hipc, hcapacity.trans h.records_capacity, hipccapacity.trans h.ipc_capacity,
          h.threads_pos⟩, rfl, hkept, rfl,
        Or.inr ⟨before, client, after, hclients, hid, hbefore, ?_, hrest⟩⟩
      simp only [destroyProcess, hfind, hfree, hremove]

end System

end Osal
