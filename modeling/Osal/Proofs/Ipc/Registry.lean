import Osal.Ipc.Registry
import Osal.Proofs.Pool

/-!
# What the buffer registry holds

`IpcRegistry.Sound r`: the slots of the registry are sound and none that is in use is empty. Then the
registry is the list of its clients: a registration appends to it unless it is full (`create_cases`),
and a removal takes out the first client of its number (`remove_cases`). An operation that is refused
gives no new registry, so that the old one stays.
-/

namespace Osal

def Config.bufferSize (config : Config) (fromProcess : Bool) : Nat :=
  if fromProcess then config.ipcTxBufSize else config.ipcRxBufSize

namespace IpcRegistry

variable {r r' : IpcRegistry} {clock : Option ClockClient} {config : Config}

/-- The slots are sound, and each one in use holds a client. -/
structure Sound (r : IpcRegistry) : Prop where
  pool : ∃ free alloc, r.clients.Sound free alloc
  filled : r.clients.toList.map (·.2) = r.toList.map some

theorem clients_of_filled {entries : List (Handle × Option IpcClient)} {clients : List IpcClient}
    (h : entries.map (·.2) = clients.map some) : entries.filterMap (·.2) = clients := by
  have hheld : (entries.map (·.2)).filterMap (fun held => held) =
      (clients.map some).filterMap fun held => held := by rw [h]
  rw [List.filterMap_map, List.filterMap_map] at hheld
  exact hheld.trans List.filterMap_some

theorem Sound.length_eq (h : r.Sound) : r.clients.toList.length = r.toList.length := by
  simpa using congrArg List.length h.filled

theorem Sound.length_le (h : r.Sound) : r.toList.length ≤ r.clients.capacity := by
  obtain ⟨free, alloc, hpool⟩ := h.pool
  have hlength := hpool.length_add
  rw [← h.length_eq, hpool.length_toList]
  omega

theorem Sound.size_eq (h : r.Sound) : r.size = r.toList.length := by
  obtain ⟨free, alloc, hpool⟩ := h.pool
  rw [size, hpool.size_eq, h.length_eq]

theorem Sound.split (h : r.Sound) {front back : List (Handle × Option IpcClient)}
    {entry : Handle × Option IpcClient} (hlist : r.clients.toList = front ++ entry :: back) :
    ∃ client before after, entry.2 = some client ∧ r.toList = before ++ client :: after ∧
      front.map (·.2) = before.map some ∧ back.map (·.2) = after.map some := by
  have hfilled := h.filled
  rw [hlist, List.map_append, List.map_cons] at hfilled
  obtain ⟨before, rest, hclients, hbefore, hrest⟩ := List.append_eq_map_iff.1 hfilled
  obtain ⟨client, after, rfl, hclient, hafter⟩ := List.map_eq_cons_iff.1 hrest
  exact ⟨client, before, after, hclient.symm, hclients, hbefore.symm, hafter.symm⟩

theorem ofConfig_spec (hmax : 0 < config.maxUserProcesses) (clock : Option ClockClient) :
    ∃ r, ofConfig config clock = .ok r ∧ r.Sound ∧ r.toList = [] ∧
      r.clients.capacity = config.maxUserProcesses := by
  obtain ⟨clients, hmade, hsound, hcapacity, -⟩ :=
    Pool.ofFn_spec hmax (fun _ => (none : Option IpcClient)) (fun _ => none) (· == ·)
  have hempty : clients.toList = [] := by rw [hsound.toList_eq, List.filterMap_nil]
  refine ⟨_, by rw [ofConfig, Pool.blank, hmade]; rfl, ⟨⟨_, _, hsound⟩, ?_⟩, ?_, hcapacity⟩
  · rw [toList, hempty]
    rfl
  · rw [toList, hempty]
    rfl

theorem create_cases (h : r.Sound) (buffers : Array SharedBuffer) (id : UInt32) :
    (r.toList.length = r.clients.capacity ∧
      r.create buffers id = .error (.exhausted r.clients.capacity)) ∨
    (r.toList.length < r.clients.capacity ∧ ∃ client r' buffers',
      r.create buffers id = .ok (client, r', buffers') ∧ client.id = id ∧ r'.Sound ∧
        r'.toList = r.toList ++ [client] ∧ r'.clients.capacity = r.clients.capacity) := by
  obtain ⟨free, alloc, hpool⟩ := h.pool
  rw [← h.length_eq]
  rcases hpool.allocate_cases with ⟨hfull, hallocate⟩ | ⟨hroom, i, rest, rfl, hallocate⟩
  · exact Or.inl ⟨hfull, by rw [create, hallocate]⟩
  · let client : IpcClient := { id, rx := buffers.size, tx := buffers.size + 1 }
    let clients := (r.clients.take i).modifyAt i fun _ => some client
    have hfill : clients.toList = r.clients.toList ++ [(r.clients.handleAt i, some client)] :=
      hpool.toList_fill (some client)
    have hlist : ({ r with clients } : IpcRegistry).toList = r.toList ++ [client] := by
      rw [toList, hfill, List.filterMap_append]
      rfl
    refine Or.inr ⟨hroom, client, { r with clients }, _, by rw [create, hallocate]; rfl, rfl,
      ⟨⟨_, _, hpool.take.modifyAt _⟩, ?_⟩, hlist, ?_⟩
    · rw [hlist, hfill, List.map_append, h.filled, List.map_append]
      rfl
    · simp [clients]

theorem remove_cases (h : r.Sound) (id : UInt32) :
    ((∀ client ∈ r.toList, client.id ≠ id) ∧ r.remove id = .error .notFound) ∨
    (∃ front client back r', r.toList = front ++ client :: back ∧ client.id = id ∧
      (∀ earlier ∈ front, earlier.id ≠ id) ∧ r.remove id = .ok r' ∧ r'.Sound ∧
        r'.toList = front ++ back ∧ r'.clients.capacity = r.clients.capacity) := by
  obtain ⟨free, alloc, hpool⟩ := h.pool
  cases hfind : r.clients.findBy (holds id) with
  | none =>
    refine Or.inl ⟨fun client hclient heq => ?_, by rw [remove, hfind]⟩
    obtain ⟨entry, hentry, hsome⟩ := List.mem_filterMap.1 hclient
    have hnot := Pool.findBy_eq_none_iff.1 hfind entry hentry
    rw [hsome, holds, Option.any_some, heq, beq_self_eq_true] at hnot
    cases hnot
  | some slot =>
    obtain ⟨front, held, back, hlist, hholds, hfront⟩ := Pool.split_of_findBy hfind
    obtain ⟨client, before, after, hheld, hclients, hbefore, hafter⟩ := h.split hlist
    obtain ⟨hfree, hkept, hsound⟩ := hpool.free_of_split hlist
    have hrest : ({ r with clients := r.clients.release slot.index } : IpcRegistry).toList =
        before ++ after := by
      rw [toList, hkept, List.filterMap_append, clients_of_filled hbefore, clients_of_filled hafter]
    have hremove : r.remove id = .ok { r with clients := r.clients.release slot.index } := by
      simp only [remove, hfind, hfree]
      rfl
    refine Or.inr ⟨before, client, after, _, hclients, ?_, ?_, hremove, ⟨hsound, ?_⟩, hrest,
      Pool.capacity_release⟩
    · rw [show held = some client from hheld] at hholds
      simpa [holds] using hholds
    · intro earlier hearlier heq
      have hmem : some earlier ∈ front.map (·.2) := by
        rw [hbefore]
        exact List.mem_map_of_mem hearlier
      obtain ⟨entry, hentry, hsome⟩ := List.mem_map.1 hmem
      have hnot := hfront entry hentry
      rw [hsome, holds, Option.any_some, heq, beq_self_eq_true] at hnot
      cases hnot
    · rw [hrest, hkept, List.map_append, hbefore, hafter, List.map_append]

/-! ### What new clients get -/

/-- The buffer that a new client gets: the one from the process, or the one towards it. -/
def blank (r : IpcRegistry) (fromProcess : Bool) : SharedBuffer :=
  .ofSize (if fromProcess then r.txSize else r.rxSize) r.maxWaiters r.clock

theorem blank_ofConfig (h : ofConfig config clock = .ok r) (fromProcess : Bool) :
    r.blank fromProcess = .ofSize (config.bufferSize fromProcess) config.semaphoreQueueSize clock := by
  rw [ofConfig] at h
  cases hmade : Pool.blank config.maxUserProcesses (none : Option IpcClient) (· == ·) with
  | error v =>
    rw [hmade] at h
    cases h
  | ok clients =>
    rw [hmade] at h
    cases h
    rfl

theorem create_eq {buffers buffers' : Array SharedBuffer} {id : UInt32} {client : IpcClient}
    (h : r.create buffers id = .ok (client, r', buffers')) :
    client = { id, rx := buffers.size, tx := buffers.size + 1 } ∧ r'.blank = r.blank ∧
      buffers' = (buffers.push (r.blank false)).push (r.blank true) := by
  rw [create] at h
  split at h
  · cases h
  · cases h
    exact ⟨rfl, rfl, rfl⟩

theorem blank_remove {id : UInt32} (h : r.remove id = .ok r') : r'.blank = r.blank := by
  rw [remove] at h
  split at h
  · cases h
  · rename_i slot _
    cases hfree : r.clients.free slot with
    | error e =>
      rw [hfree] at h
      cases h
    | ok clients =>
      rw [hfree] at h
      cases h
      rfl

end IpcRegistry

end Osal
