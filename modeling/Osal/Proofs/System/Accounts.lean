import Mathlib.Data.List.Induction
import Osal.Proofs.System.Chronicle

/-!
# The processes of a system

In a run that uses the registry only through the system, the history tells both tables. The processes
are those that were created and not destroyed since, numbered in the order of their creation, and the
clients are those of the processes (`Accounted`). So the registry refuses nothing that the table grants,
no operation stops halfway, and a failed one changes nothing: `processes_accounted`.
-/

namespace Osal

namespace System

variable {s : System} {config : Config} {pid : Pid}

/-! ## The account of a history -/

def Deed.born? : Deed → Option Pid
  | .created pid _ => some pid
  | .destroyed _ => none

def births (history : List Deed) : List Pid := history.filterMap Deed.born?

/-- The history tells the process table, and the registry is that of the processes in the table. -/
structure Accounted (history : List Deed) (s : System) : Prop where
  ids_eq : s.ipc.toList.map (·.id) = s.processes.map (·.pid)
  births_eq : (births history).reverse.map (·.toNat) = List.range' 1 (births history).length
  nextPid_eq : s.nextPid.toNat = (births history).length + 1
  pids_nodup : (s.processes.map (·.pid)).Nodup
  mem_iff : ∀ record, record ∈ s.processes ↔
    .created record.pid record.name ∈ history ∧ .destroyed record.pid ∉ history
  born_of_destroyed : ∀ pid, .destroyed pid ∈ history → pid ∈ births history

variable {history : List Deed}

theorem mem_births_of_created {name : String} (h : .created pid name ∈ history) :
    pid ∈ births history :=
  List.mem_filterMap.2 ⟨_, h, rfl⟩

theorem map_eq_erase {α β : Type} [BEq β] [LawfulBEq β] {key : α → β} {front back : List α} {a : α}
    {b : β} (ha : key a = b) (hfront : ∀ x ∈ front, key x ≠ b) :
    (front ++ back).map key = ((front ++ a :: back).map key).erase b := by
  have hnot : b ∉ front.map key := by
    intro hmem
    obtain ⟨x, hx, hkey⟩ := List.mem_map.1 hmem
    exact hfront x hx hkey
  rw [List.map_append, List.map_append, List.map_cons, List.erase_append_right _ hnot, ha,
    List.erase_cons_head]

theorem mem_rest_iff {α β : Type} {key : α → β} {front back : List α} {a x : α}
    (h : ((front ++ a :: back).map key).Nodup) :
    x ∈ front ++ back ↔ x ∈ front ++ a :: back ∧ key x ≠ key a := by
  rw [List.map_append, List.map_cons, List.nodup_middle, ← List.map_append, List.nodup_cons] at h
  constructor
  · intro hx
    refine ⟨(List.Sublist.append_left (List.sublist_cons_self ..) front).mem hx, fun heq => h.1 ?_⟩
    rw [← heq]
    exact List.mem_map_of_mem hx
  · rintro ⟨hx, hne⟩
    rw [List.mem_append, List.mem_cons] at hx
    rw [List.mem_append]
    rcases hx with hx | rfl | hx
    · exact Or.inl hx
    · exact absurd rfl hne
    · exact Or.inr hx

namespace Accounted

theorem bounds_of_born (h : Accounted history s) (hborn : pid ∈ births history) :
    1 ≤ pid.toNat ∧ pid.toNat ≤ (births history).length := by
  have hmem : pid.toNat ∈ (births history).reverse.map (·.toNat) :=
    List.mem_map_of_mem (List.mem_reverse.2 hborn)
  rw [h.births_eq, List.mem_range'_1] at hmem
  omega

theorem nextPid_notMem (h : Accounted history s) : s.nextPid ∉ births history := by
  intro hborn
  have hbounds := h.bounds_of_born hborn
  rw [h.nextPid_eq] at hbounds
  omega

theorem born_of_mem (h : Accounted history s) {record : ProcessRecord} (hmem : record ∈ s.processes) :
    record.pid ∈ births history :=
  mem_births_of_created ((h.mem_iff record).1 hmem).1

theorem create (h : Accounted history s) {name : String} {client : IpcClient} {s' : System}
    (hlimit : (births history).length + 1 < 4294967295) (hid : client.id = s.nextPid)
    (hprocesses : s'.processes = s.processes ++ [{ pid := s.nextPid, name }])
    (hclients : s'.ipc.toList = s.ipc.toList ++ [client]) (hnext : s'.nextPid = s.nextPid + 1) :
    Accounted (.created s.nextPid name :: history) s' := by
  have hfresh := h.nextPid_notMem
  have hbirths : births (.created s.nextPid name :: history) = s.nextPid :: births history := rfl
  refine ⟨?_, ?_, ?_, ?_, fun record => ?_, ?_⟩
  · rw [hclients, hprocesses, List.map_append, List.map_append, h.ids_eq]
    exact congrArg (_ ++ [·]) hid
  · rw [hbirths, List.reverse_cons, List.map_append, h.births_eq, List.length_cons,
      List.range'_1_concat, List.map_singleton, h.nextPid_eq, Nat.add_comm]
  · rw [hnext, hbirths, List.length_cons, UInt32.toNat_add, h.nextPid_eq]
    exact Nat.mod_eq_of_lt (Nat.succ_lt_succ hlimit)
  · rw [hprocesses, List.map_append]
    refine List.nodup_append.2 ⟨h.pids_nodup, List.nodup_singleton _, fun pid hpid next hnew heq => ?_⟩
    obtain ⟨record, hrecord, rfl⟩ := List.mem_map.1 hpid
    obtain rfl := List.mem_singleton.1 hnew
    have hpid : record.pid = s.nextPid := heq
    exact hfresh (hpid ▸ h.born_of_mem hrecord)
  · rw [hprocesses, List.mem_append, List.mem_singleton, h.mem_iff, List.mem_cons, List.mem_cons]
    constructor
    · rintro (⟨hcreated, hdestroyed⟩ | rfl)
      · exact ⟨Or.inr hcreated, fun hor => hdestroyed (hor.resolve_left (by simp))⟩
      · exact ⟨Or.inl rfl, fun hor => hfresh (h.born_of_destroyed _ (hor.resolve_left (by simp)))⟩
    · rintro ⟨hcreated | hcreated, hdestroyed⟩
      · injection hcreated with hpid hname
        exact Or.inr (by rw [← hpid, ← hname])
      · exact Or.inl ⟨hcreated, fun hmem => hdestroyed (Or.inr hmem)⟩
  · intro pid hdestroyed
    rcases List.mem_cons.1 hdestroyed with heq | hdestroyed
    · cases heq
    · exact List.mem_cons_of_mem _ (h.born_of_destroyed pid hdestroyed)

theorem destroy (h : Accounted history s) {front back : List ProcessRecord} {record : ProcessRecord}
    {before after : List IpcClient} {client : IpcClient} {s' : System}
    (hsplit : s.processes = front ++ record :: back) (hpid : record.pid = pid)
    (hfront : ∀ earlier ∈ front, earlier.pid ≠ pid) (hprocesses : s'.processes = front ++ back)
    (hclients : s.ipc.toList = before ++ client :: after) (hid : client.id = pid)
    (hbefore : ∀ earlier ∈ before, earlier.id ≠ pid) (hrest : s'.ipc.toList = before ++ after)
    (hnext : s'.nextPid = s.nextPid) : Accounted (.destroyed pid :: history) s' := by
  have hbirths : births (.destroyed pid :: history) = births history := rfl
  have hpids : s'.processes.map (·.pid) = (s.processes.map (·.pid)).erase pid := by
    rw [hprocesses, hsplit, map_eq_erase hpid hfront]
  have hrecord : record ∈ s.processes := by
    rw [hsplit]
    exact List.mem_append_right _ List.mem_cons_self
  refine ⟨?_, ?_, ?_, ?_, fun other => ?_, ?_⟩
  · rw [hpids, ← h.ids_eq, hrest, hclients, map_eq_erase hid hbefore]
  · rw [hbirths, h.births_eq]
  · rw [hnext, hbirths, h.nextPid_eq]
  · rw [hpids]
    exact h.pids_nodup.erase pid
  · have hother : other ∈ s'.processes ↔ other ∈ s.processes ∧ other.pid ≠ pid := by
      have hnodup := h.pids_nodup
      rw [hsplit] at hnodup
      rw [hprocesses, hsplit, mem_rest_iff hnodup, hpid]
    rw [hother, h.mem_iff, List.mem_cons, List.mem_cons]
    constructor
    · rintro ⟨⟨hcreated, hdestroyed⟩, hne⟩
      refine ⟨Or.inr hcreated, ?_⟩
      rintro (heq | hmem)
      · injection heq with heq
        exact hne heq
      · exact hdestroyed hmem
    · rintro ⟨hcreated, hdestroyed⟩
      refine ⟨⟨hcreated.resolve_left (by simp), fun hmem => hdestroyed (Or.inr hmem)⟩, fun heq => ?_⟩
      exact hdestroyed (Or.inl (by rw [heq]))
  · intro other hdestroyed
    rcases List.mem_cons.1 hdestroyed with heq | hdestroyed
    · injection heq with heq
      rw [hbirths, heq, ← hpid]
      exact h.born_of_mem hrecord
    · exact h.born_of_destroyed other hdestroyed

/-! ## What the operations do then -/

theorem length_clients (h : Accounted history s) : s.ipc.toList.length = s.processes.length := by
  simpa using congrArg List.length h.ids_eq

theorem create_cases (h : Accounted history s) (hsound : s.Sound) (buffers : Array SharedBuffer)
    (name : String) :
    (s.processes.length = s.config.maxUserProcesses ∧ s.createProcess buffers name =
      (.error (.refused (.exhausted s.config.maxUserProcesses)), s, buffers)) ∨
    (s.processes.length < s.config.maxUserProcesses ∧ ∃ process client s' buffers',
      s.createProcess buffers name = (.ok process, s', buffers') ∧ process.pid = s.nextPid ∧
        client.id = s.nextPid ∧ s'.processes = s.processes ++ [{ pid := s.nextPid, name }] ∧
        s'.ipc.toList = s.ipc.toList ++ [client] ∧ s'.nextPid = s.nextPid + 1) := by
  rcases System.create_cases hsound buffers name with hfull | ⟨hroom, hipcfull, -⟩ |
    ⟨hroom, -, process, client, s', buffers', hcreate, hpid, -, -, hid, -, -, hprocesses, hclients,
      hnext⟩
  · exact Or.inl hfull
  · rw [h.length_clients] at hipcfull
    omega
  · exact Or.inr ⟨hroom, process, client, s', buffers', hcreate, hpid, hid, hprocesses, hclients,
      hnext⟩

theorem destroy_cases (h : Accounted history s) (hsound : s.Sound) (pid : Pid) :
    ((∀ record ∈ s.processes, record.pid ≠ pid) ∧ s.destroyProcess pid = (.error .notFound, s)) ∨
    ((∃ record ∈ s.processes, record.pid = pid) ∧ ∃ s', s.destroyProcess pid = (.ok (), s') ∧
      Accounted (.destroyed pid :: history) s') := by
  rcases System.destroy_cases hsound pid with hnone |
    ⟨front, record, back, s', hsplit, hpid, hfront, -, -, hprocesses, hnext, hregistry⟩
  · exact Or.inl hnone
  · have hrecord : record ∈ s.processes := by
      rw [hsplit]
      exact List.mem_append_right _ List.mem_cons_self
    refine Or.inr ⟨⟨record, hrecord, hpid⟩, ?_⟩
    rcases hregistry with ⟨hnone, -⟩ | ⟨before, client, after, hclients, hid, hbefore, hdestroy, hrest⟩
    · -- the process has a client
      have hmem : record.pid ∈ s.ipc.toList.map (·.id) := by
        rw [h.ids_eq]
        exact List.mem_map_of_mem hrecord
      obtain ⟨client, hclient, hid⟩ := List.mem_map.1 hmem
      exact absurd (hid.trans hpid) (hnone client hclient)
    · exact ⟨s', hdestroy,
        h.destroy hsplit hpid hfront hprocesses hclients hid hbefore hrest hnext⟩

theorem processName_iff (h : Accounted history s) (hsound : s.Sound) (pid : Pid) (name : String) :
    s.processName pid = some name ↔ .created pid name ∈ history ∧ .destroyed pid ∉ history := by
  have hmem := h.mem_iff { pid, name }
  rw [hsound.processName_eq, Option.map_eq_some_iff, ← hmem]
  constructor
  · rintro ⟨record, hfound, rfl⟩
    obtain rfl : record.pid = pid := by simpa using List.find?_some hfound
    exact List.mem_of_find?_eq_some hfound
  · intro hrecord
    cases hfound : s.processes.find? fun record => record.pid == pid with
    | none =>
      have hnot := List.find?_eq_none.1 hfound _ hrecord
      simp at hnot
    | some record =>
      have hpid : record.pid = pid := by simpa using List.find?_some hfound
      have heq := List.inj_on_of_nodup_map h.pids_nodup (List.mem_of_find?_eq_some hfound) hrecord hpid
      exact ⟨record, rfl, by rw [heq]⟩

theorem register_isOk (h : Accounted history s) (hsound : s.Sound) {slot : Handle}
    {records : Pool ProcessRecord} (hallocate : s.records.allocate = .ok (slot, records))
    (buffers : Array SharedBuffer) : ∃ registered, s.ipc.create buffers s.nextPid = .ok registered := by
  obtain ⟨free, alloc, hrecords⟩ := hsound.records
  rcases hrecords.allocate_cases with ⟨-, hfull⟩ | ⟨hroom, -⟩
  · rw [hfull] at hallocate
    cases hallocate
  · have hlen : s.ipc.toList.length < s.ipc.clients.capacity := by
      rw [h.length_clients, processes, List.length_map, hsound.ipc_capacity, ← hsound.records_capacity]
      exact hroom
    rcases IpcRegistry.create_cases hsound.ipc buffers s.nextPid with ⟨hfull, -⟩ |
      ⟨-, client, ipc, buffers', hcreate, -⟩
    · omega
    · exact ⟨_, hcreate⟩

theorem unregister_isOk (h : Accounted history s) (hsound : s.Sound) {slot : Handle}
    (hfind : s.find pid = some slot) :
    (∃ records, s.records.free slot = .ok records) ∧ ∃ ipc, s.ipc.remove pid = .ok ipc := by
  rcases find_cases hsound pid with ⟨-, hnone⟩ |
    ⟨front, record, back, found, records, hsplit, rfl, -, hfound, hfree, -⟩
  · rw [hnone] at hfind
    cases hfind
  · obtain rfl := Option.some.inj (hfound.symm.trans hfind)
    refine ⟨⟨records, hfree⟩, ?_⟩
    have hrecord : record.pid ∈ s.ipc.toList.map (·.id) := by
      rw [h.ids_eq, hsplit, List.map_append, List.map_cons]
      exact List.mem_append_right _ List.mem_cons_self
    obtain ⟨client, hclient, hid⟩ := List.mem_map.1 hrecord
    rcases IpcRegistry.remove_cases hsound.ipc record.pid with ⟨hnone, -⟩ |
      ⟨_, _, _, ipc, -, -, -, hremove, -⟩
    · exact absurd hid (hnone client hclient)
    · exact ⟨ipc, hremove⟩

end Accounted

/-! ## Runs -/

namespace Chronicle

variable {c : Chronicle} {op : Op}

theorem sublist_handle (c : Chronicle) (op : Op) : c.history.Sublist (c.handle op).history := by
  cases op with
  | create name =>
    simp only [handle]
    split
    · exact List.sublist_cons_self ..
    · exact List.Sublist.refl _
  | destroy pid =>
    simp only [handle]
    split
    · exact List.sublist_cons_self ..
    · exact List.Sublist.refl _
  | register id =>
    simp only [handle]
    split <;> exact List.Sublist.refl _
  | unregister id =>
    simp only [handle]
    split <;> exact List.Sublist.refl _

theorem accounted_handle (hsound : c.system.Sound) (h : Accounted c.history c.system)
    (hop : op.isDirect = false)
    (hlimit : (births (c.handle op).history).length < 4294967295) :
    Accounted (c.handle op).history (c.handle op).system := by
  cases op with
  | create name =>
    rcases h.create_cases hsound c.buffers name with ⟨-, hcreate⟩ |
      ⟨-, process, client, s', buffers', hcreate, hpid, hid, hprocesses, hclients, hnext⟩
    · simp only [handle, hcreate]
      exact h
    · simp only [handle, hcreate, hpid] at hlimit ⊢
      exact h.create hlimit hid hprocesses hclients hnext
  | destroy pid =>
    rcases h.destroy_cases hsound pid with ⟨-, hdestroy⟩ | ⟨-, s', hdestroy, hgone⟩
    · simp only [handle, hdestroy]
      exact h
    · simp only [handle, hdestroy]
      exact hgone
  | register id => cases hop
  | unregister id => cases hop

theorem accounted_run (hsound : c.system.Sound) (h : Accounted c.history c.system) (ops : List Op)
    (hops : ∀ op ∈ ops, op.isDirect = false)
    (hlimit : (births (c.run ops).history).length < 4294967295) :
    Accounted (c.run ops).history (c.run ops).system := by
  induction ops using List.reverseRecOn with
  | nil => exact h
  | append_singleton ops op ih =>
    rw [run_append] at hlimit ⊢
    have hle := ((sublist_handle (c.run ops) op).filterMap Deed.born?).length_le
    have hbefore := ih (fun op hop => hops op (List.mem_append_left _ hop))
      (Nat.lt_of_le_of_lt hle hlimit)
    exact accounted_handle (sound_run hsound rfl ops).1 hbefore
      (hops op (List.mem_append_right _ List.mem_cons_self)) hlimit

end Chronicle

/-! ## The tables match -/

/-- The process table and the registry agree with one another and with the history, and no operation
fails between the two. -/
structure TablesMatch (history : List Deed) (s : System) : Prop where
  pids_nodup : (s.processes.map (·.pid)).Nodup
  pid_ne_root : ∀ record ∈ s.processes, record.pid ≠ rootPid
  ids_eq : s.ipc.toList.map (·.id) = s.processes.map (·.pid)
  processCount_eq : s.processCount = s.processes.length
  /-- The first created process has number one, and each later one the next number. -/
  births_eq : (births history).reverse.map (·.toNat) = List.range' 1 (births history).length
  nextPid_eq : s.nextPid.toNat = (births history).length + 1
  live_iff : ∀ pid, pid ∈ s.processes.map (·.pid) ↔
    (∃ name, .created pid name ∈ history) ∧ .destroyed pid ∉ history
  processName_iff : ∀ pid name, s.processName pid = some name ↔
    .created pid name ∈ history ∧ .destroyed pid ∉ history
  create_full_iff : ∀ buffers name, (s.createProcess buffers name).1 =
      .error (.refused (.exhausted s.config.maxUserProcesses)) ↔
    s.processCount = s.config.maxUserProcesses
  create_error : ∀ buffers name stop, (s.createProcess buffers name).1 = .error stop →
    s.createProcess buffers name =
      (.error (.refused (.exhausted s.config.maxUserProcesses)), s, buffers)
  register_isOk : ∀ buffers slot records, s.records.allocate = .ok (slot, records) →
    ∃ registered, s.ipc.create buffers s.nextPid = .ok registered
  destroy_error_iff : ∀ pid, (∃ e, (s.destroyProcess pid).1 = .error e) ↔
    pid ∉ s.processes.map (·.pid)
  destroy_error : ∀ pid e, (s.destroyProcess pid).1 = .error e →
    s.destroyProcess pid = (.error .notFound, s)
  unregister_isOk : ∀ pid slot, s.find pid = some slot →
    (∃ records, s.records.free slot = .ok records) ∧ ∃ ipc, s.ipc.remove pid = .ok ipc

theorem Accounted.tablesMatch (h : Accounted history s) (hsound : s.Sound) :
    TablesMatch history s where
  pids_nodup := h.pids_nodup
  pid_ne_root record hrecord heq := by
    have hbounds := h.bounds_of_born (h.born_of_mem hrecord)
    rw [heq] at hbounds
    exact absurd hbounds.1 (by decide)
  ids_eq := h.ids_eq
  processCount_eq := hsound.processCount_eq
  births_eq := h.births_eq
  nextPid_eq := h.nextPid_eq
  live_iff pid := by
    rw [List.mem_map]
    constructor
    · rintro ⟨record, hrecord, rfl⟩
      obtain ⟨hcreated, hdestroyed⟩ := (h.mem_iff record).1 hrecord
      exact ⟨⟨_, hcreated⟩, hdestroyed⟩
    · rintro ⟨⟨name, hcreated⟩, hdestroyed⟩
      exact ⟨{ pid, name }, (h.mem_iff _).2 ⟨hcreated, hdestroyed⟩, rfl⟩
  processName_iff := h.processName_iff hsound
  create_full_iff buffers name := by
    rw [hsound.processCount_eq]
    rcases h.create_cases hsound buffers name with ⟨hfull, hcreate⟩ |
      ⟨hroom, process, _, _, _, hcreate, -⟩
    · rw [hcreate]
      exact iff_of_true rfl hfull
    · rw [hcreate]
      exact iff_of_false (by simp) (by omega)
  create_error buffers name stop herror := by
    rcases h.create_cases hsound buffers name with ⟨-, hcreate⟩ | ⟨-, process, _, _, _, hcreate, -⟩
    · exact hcreate
    · rw [hcreate] at herror
      cases herror
  register_isOk buffers slot records hallocate := h.register_isOk hsound hallocate buffers
  destroy_error_iff pid := by
    rw [List.mem_map]
    rcases h.destroy_cases hsound pid with ⟨hnone, hdestroy⟩ | ⟨hlive, s', hdestroy, -⟩
    · rw [hdestroy]
      exact iff_of_true ⟨_, rfl⟩ fun ⟨record, hrecord, hpid⟩ => hnone record hrecord hpid
    · rw [hdestroy]
      exact iff_of_false (by simp) (not_not_intro hlive)
  destroy_error pid e herror := by
    rcases h.destroy_cases hsound pid with ⟨-, hdestroy⟩ | ⟨-, s', hdestroy, -⟩
    · exact hdestroy
    · rw [hdestroy] at herror
      cases herror
  unregister_isOk pid slot hfind := h.unregister_isOk hsound hfind

/-- In every run of creations and destructions, of fewer processes than there are numbers, the tables
match. -/
theorem processes_accounted (hvalid : config.validate = .ok ()) :
    ∃ s, ofConfig config = .ok s ∧ ∀ ops, (∀ op ∈ ops, op.isDirect = false) →
      let c := Chronicle.run { system := s } ops
      (births c.history).length < 4294967295 →
        c.system.config = config ∧ TablesMatch c.history c.system := by
  obtain ⟨s, hmade, hsound, hconfig, hprocesses, hclients, hnext⟩ := ofConfig_of_valid hvalid
  have hempty : Accounted [] s := by
    refine ⟨?_, rfl, ?_, ?_, ?_, ?_⟩
    · rw [hclients, hprocesses]
      rfl
    · rw [hnext]
      rfl
    · simp [hprocesses]
    · simp [hprocesses]
    · simp
  refine ⟨s, hmade, fun ops hops => ?_⟩
  intro c hlimit
  obtain ⟨hrun, hkept⟩ := Chronicle.sound_run (c := { system := s }) hsound hconfig ops
  have haccounted := Chronicle.accounted_run (c := { system := s }) hsound hempty ops hops hlimit
  exact ⟨hkept, haccounted.tablesMatch hrun⟩

/-- Two processes fill the tables; the third is refused, and has number three once there is room. -/
theorem processes_accounted_recycled :
    let config : Config := { maxUserProcesses := 2 }
    let ops : List Op := [.create "a", .create "b", .create "c", .destroy 1, .create "c", .destroy 4]
    let history : List Deed := [.created 3 "c", .destroyed 1, .created 2 "b", .created 1 "a"]
    config.validate = .ok () ∧ (∀ op ∈ ops, op.isDirect = false) ∧
      ∃ s, ofConfig config = .ok s ∧ (Chronicle.run { system := s } ops).history = history ∧
        (births history).length < 4294967295 ∧
        TablesMatch history (Chronicle.run { system := s } ops).system := by
  intro config ops history
  have hvalid : config.validate = .ok () := rfl
  have hops : ∀ op ∈ ops, op.isDirect = false := by decide
  obtain ⟨s, hmade, hruns⟩ := processes_accounted hvalid
  have hhistory : (ofConfig config).toOption.map
      (fun s => (Chronicle.run { system := s } ops).history) = some history := by decide +kernel
  rw [hmade] at hhistory
  have hrun : (Chronicle.run { system := s } ops).history = history := Option.some.inj hhistory
  have hlimit : (births history).length < 4294967295 := by decide
  have hmatch := (hruns ops hops (by rw [hrun]; exact hlimit)).2
  rw [hrun] at hmatch
  exact ⟨hvalid, hops, s, hmade, hrun, hlimit, hmatch⟩

end System

end Osal
