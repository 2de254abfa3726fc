import Osal.Proofs.System.Tables

/-!
# Runs of a system

A chronicle is a system with the history of the processes that were created and destroyed in it. A run
may also register and remove clients directly, past the process table. Every run keeps both tables
sound (`Chronicle.sound_run`).

Past the table the registry can come to refuse what the table grants. A creation that it refuses shows
no trace, but a destruction that it refuses has removed the process: `all_or_nothing_iff`.
-/

namespace Osal

namespace System

variable {s : System} {config : Config} {pid : Pid}

/-- What is done with a system, or directly with its registry. -/
inductive Op where
  | create (name : String)
  | destroy (pid : Pid)
  | register (id : UInt32)
  | unregister (id : UInt32)

/-- Whether an operation goes past the process table. -/
def Op.isDirect : Op → Bool
  | .register _ | .unregister _ => true
  | .create _ | .destroy _ => false

/-- What succeeded. -/
inductive Deed where
  | created (pid : Pid) (name : String)
  | destroyed (pid : Pid)
  deriving DecidableEq

/-- A system, all buffers, and the processes created and destroyed so far, the latest first. -/
structure Chronicle where
  system : System
  buffers : Array SharedBuffer := #[]
  history : List Deed := []

namespace Chronicle

def handle (c : Chronicle) : Op → Chronicle
  | .create name =>
    match c.system.createProcess c.buffers name with
    | (.ok process, system, buffers) =>
      { system, buffers, history := .created process.pid name :: c.history }
    | (.error _, system, buffers) => { c with system, buffers }
  | .destroy pid =>
    match c.system.destroyProcess pid with
    | (.ok (), system) => { c with system, history := .destroyed pid :: c.history }
    | (.error _, system) => { c with system }
  | .register id =>
    match c.system.ipc.create c.buffers id with
    | .ok (_, ipc, buffers) => { c with system := { c.system with ipc }, buffers }
    | .error _ => c
  | .unregister id =>
    match c.system.ipc.remove id with
    | .ok ipc => { c with system := { c.system with ipc } }
    | .error _ => c

def run (c : Chronicle) (ops : List Op) : Chronicle := ops.foldl handle c

variable {c : Chronicle} {op : Op}

@[simp] theorem run_append (c : Chronicle) (ops rest : List Op) :
    c.run (ops ++ rest) = (c.run ops).run rest := List.foldl_append

/-! ## The tables of every run -/

theorem sound_handle (h : c.system.Sound) (hconfig : c.system.config = config) (op : Op) :
    (c.handle op).system.Sound ∧ (c.handle op).system.config = config := by
  cases op with
  | create name =>
    rcases create_cases h c.buffers name with ⟨-, hcreate⟩ |
      ⟨-, -, s', hcreate, hsound, hkept, -⟩ |
      ⟨-, -, process, client, s', buffers', hcreate, -, -, -, -, hsound, hkept, -⟩
    · simp only [handle, hcreate]
      exact ⟨h, hconfig⟩
    · simp only [handle, hcreate]
      exact ⟨hsound, hkept.trans hconfig⟩
    · simp only [handle, hcreate]
      exact ⟨hsound, hkept.trans hconfig⟩
  | destroy pid =>
    rcases destroy_cases h pid with ⟨-, hdestroy⟩ |
      ⟨front, record, back, s', -, -, -, hsound, hkept, -, -, ⟨-, hdestroy, -⟩ |
        ⟨before, client, after, -, -, -, hdestroy, -⟩⟩
    · simp only [handle, hdestroy]
      exact ⟨h, hconfig⟩
    · simp only [handle, hdestroy]
      exact ⟨hsound, hkept.trans hconfig⟩
    · simp only [handle, hdestroy]
      exact ⟨hsound, hkept.trans hconfig⟩
  | register id =>
    rcases IpcRegistry.create_cases h.ipc c.buffers id with ⟨-, hcreate⟩ |
      ⟨-, client, ipc, buffers', hcreate, -, hsound, -, hcapacity⟩
    · simp only [handle, hcreate]
      exact ⟨h, hconfig⟩
    · simp only [handle, hcreate]
      exact ⟨⟨h.records, hsound, h.records_capacity, hcapacity.trans h.ipc_capacity, h.threads_pos⟩,
        hconfig⟩
  | unregister id =>
    rcases IpcRegistry.remove_cases h.ipc id with ⟨-, hremove⟩ |
      ⟨front, client, back, ipc, -, -, -, hremove, hsound, -, hcapacity⟩
    · simp only [handle, hremove]
      exact ⟨h, hconfig⟩
    · simp only [handle, hremove]
      exact ⟨⟨h.records, hsound, h.records_capacity, hcapacity.trans h.ipc_capacity, h.threads_pos⟩,
        hconfig⟩

theorem sound_run (h : c.system.Sound) (hconfig : c.system.config = config) (ops : List Op) :
    (c.run ops).system.Sound ∧ (c.run ops).system.config = config := by
  unfold run
  induction ops generalizing c with
  | nil => exact ⟨h, hconfig⟩
  | cons op ops ih =>
    obtain ⟨hsound, hkept⟩ := sound_handle h hconfig op
    exact ih hsound hkept

end Chronicle

/-! ## Failed operations -/

/-- The process table, the next number and the registered clients look the same. -/
structure SameTables (s s' : System) : Prop where
  processCount : s'.processCount = s.processCount
  processName : ∀ pid, s'.processName pid = s.processName pid
  nextPid : s'.nextPid = s.nextPid
  clients : s'.ipc.toList = s.ipc.toList

theorem sameTables_of_eq {s' : System} (h : s.Sound) (h' : s'.Sound)
    (hprocesses : s'.processes = s.processes) (hnext : s'.nextPid = s.nextPid)
    (hclients : s'.ipc.toList = s.ipc.toList) : SameTables s s' where
  processCount := by rw [h.processCount_eq, h'.processCount_eq, hprocesses]
  processName pid := by rw [h.processName_eq, h'.processName_eq, hprocesses]
  nextPid := hnext
  clients := hclients

theorem Sound.processName_eq_none_iff (h : s.Sound) :
    s.processName pid = none ↔ ∀ record ∈ s.processes, record.pid ≠ pid := by
  rw [h.processName_eq, Option.map_eq_none_iff, List.find?_eq_none]
  simp only [beq_iff_eq, ne_eq]

theorem sameTables_of_create_error (h : s.Sound) {buffers buffers' : Array SharedBuffer} {name : String}
    {stop : Stop} {s' : System} (herror : s.createProcess buffers name = (.error stop, s', buffers')) :
    SameTables s s' := by
  rcases create_cases h buffers name with ⟨-, hcreate⟩ |
    ⟨-, -, refused, hcreate, hsound, -, hprocesses, hipc, hnext⟩ |
    ⟨-, -, process, client, refused, _, hcreate, -⟩
  · rw [hcreate] at herror
    cases herror
    exact sameTables_of_eq h h rfl rfl rfl
  · rw [hcreate] at herror
    cases herror
    exact sameTables_of_eq h hsound hprocesses hnext (by rw [hipc])
  · rw [hcreate] at herror
    cases herror

/-- A destruction that fails leaves no trace just if there was no process to destroy. -/
theorem sameTables_iff_of_destroy_error (h : s.Sound) {e : Error} {s' : System}
    (herror : s.destroyProcess pid = (.error e, s')) :
    SameTables s s' ↔ s.processName pid = none := by
  rcases destroy_cases h pid with ⟨hnone, hdestroy⟩ |
    ⟨front, record, back, left, hsplit, hpid, -, hsound, -, hprocesses, -, ⟨-, hdestroy, -⟩ |
      ⟨before, client, after, -, -, -, hdestroy, -⟩⟩
  · rw [hdestroy] at herror
    cases herror
    exact iff_of_true (sameTables_of_eq h h rfl rfl rfl) (h.processName_eq_none_iff.2 hnone)
  · rw [hdestroy] at herror
    cases herror
    refine iff_of_false (fun hsame => ?_) fun hnone => ?_
    · have hcount := hsame.processCount
      rw [h.processCount_eq, hsound.processCount_eq, hprocesses, hsplit, List.length_append,
        List.length_append, List.length_cons] at hcount
      omega
    · refine h.processName_eq_none_iff.1 hnone record ?_ hpid
      rw [hsplit]
      exact List.mem_append_right _ List.mem_cons_self
  · rw [hdestroy] at herror
    cases herror

theorem ofConfig_of_valid (hvalid : config.validate = .ok ()) :
    ∃ s, ofConfig config = .ok s ∧ s.Sound ∧ s.config = config ∧ s.processes = [] ∧
      s.ipc.toList = [] ∧ s.nextPid = rootPid + 1 := by
  have hpos := Config.validate_eq_ok_iff.1 hvalid
  exact ofConfig_spec (Nat.pos_of_ne_zero (hpos .maxUserProcesses (by decide)))
    (Nat.pos_of_ne_zero (hpos .maxThreadsPerProcess (by decide)))

/-- In every run, one that uses the registry directly included, creations are all or nothing, and a
destruction that fails is so just where no process of the number is live. -/
theorem all_or_nothing_iff (hvalid : config.validate = .ok ()) :
    ∃ s, ofConfig config = .ok s ∧ ∀ ops, let c := Chronicle.run { system := s } ops
      (∀ name stop s' buffers, c.system.createProcess c.buffers name = (.error stop, s', buffers) →
        SameTables c.system s') ∧
      ∀ pid e s', c.system.destroyProcess pid = (.error e, s') →
        (SameTables c.system s' ↔ c.system.processName pid = none) := by
  obtain ⟨s, hmade, hsound, -⟩ := ofConfig_of_valid hvalid
  refine ⟨s, hmade, fun ops => ?_⟩
  obtain ⟨hrun, -⟩ := Chronicle.sound_run (c := { system := s }) hsound rfl ops
  exact ⟨fun name stop s' buffers herror => sameTables_of_create_error hrun herror,
    fun pid e s' herror => sameTables_iff_of_destroy_error hrun herror⟩

/-- With its client removed from the registry a process cannot be destroyed, and yet is gone. -/
example : (ofConfig { maxUserProcesses := 2 }).toOption.map (fun s =>
    let c := Chronicle.run { system := s } [.create "a", .unregister 1]
    let (outcome, s') := c.system.destroyProcess 1
    (outcome, c.system.processCount, s'.processCount)) = some (.error .notFound, 1, 0) := by
  rfl

end System

end Osal
