import Osal.Proofs.Ipc.Registry
import Osal.Proofs.Ipc.Users

/-!
# The registry as a queue of clients

`ClientQueue` is what the buffer registry stands for: the clients that are registered, in the order of their
creation, and every client that was ever made with two buffers of its own, which whoever has a handle to it
may use whether or not it is still registered. `refines_client_queue`: the registry answers every run of
requests as the queue does. Which slot a client has cannot be told, and no client gets the buffers of
another.
-/

namespace Osal

/-- What can be asked of the registry and its clients. -/
inductive ClientRequest where
  | create (id : UInt32)
  | remove (id : UInt32)
  | find (id : UInt32)
  | size
  /-- Do something to a buffer of the client that was made as the `n`th, counted from zero. -/
  | use (n : Nat) (fromProcess : Bool) (change : SharedBuffer → SharedBuffer)

/-- What is answered. -/
inductive ClientAnswer where
  | created (client : IpcClient)
  | removed
  | found (client : Option IpcClient)
  | counted (n : Nat)
  | used
  | refused (cause : Error)
  deriving DecidableEq

def ClientAnswer.failed : ClientAnswer → Bool
  | .refused _ => true
  | _ => false

/-- A buffer that nobody has used yet. -/
structure SharedBuffer.IsFresh (b : SharedBuffer) (size : Nat) : Prop where
  zeroed : b.bytes = List.replicate size 0
  available : b.isAvailable = true
  unlocked : b.data.IsFree

theorem SharedBuffer.isFresh_ofSize (size maxWaiters : Nat) (clock : Option ClockClient) :
    (ofSize size maxWaiters clock).IsFresh size := ⟨rfl, rfl, rfl, rfl, rfl, rfl⟩

/-! ## The queue -/

/-- A client with its buffers as they are now: the one from the process, and the one towards it. -/
structure ClientRecord where
  client : IpcClient
  buffer : Bool → SharedBuffer

/-- Clients in a queue. -/
structure ClientQueue where
  capacity : Nat
  /-- How many buffers there were before there were clients. -/
  base : Nat
  /-- The buffers of a new client. -/
  blank : Bool → SharedBuffer
  /-- Every client that was ever made, in the order of creation. -/
  made : List ClientRecord := []
  /-- The clients that are registered, in the order of creation. -/
  registered : List IpcClient := []

namespace ClientRecord

def change (m : ClientRecord) (fromProcess : Bool) (f : SharedBuffer → SharedBuffer) : ClientRecord :=
  { m with buffer := Function.update m.buffer fromProcess (f (m.buffer fromProcess)) }

variable {m : ClientRecord} {d e : Bool} {f : SharedBuffer → SharedBuffer}

@[simp] theorem buffer_change_self : (m.change d f).buffer d = f (m.buffer d) := Function.update_self ..

@[simp] theorem buffer_change_ne (h : e ≠ d) : (m.change d f).buffer e = m.buffer e :=
  Function.update_of_ne h ..

theorem getElem?_modify_change {made : List ClientRecord} {n k : Nat} {m' : ClientRecord}
    (h : (made.modify n (·.change d f))[k]? = some m') :
    ∃ m, made[k]? = some m ∧ m'.client = m.client ∧ m' = if n = k then m.change d f else m := by
  rw [List.getElem?_modify] at h
  obtain ⟨m, hm, rfl⟩ := Option.map_eq_some_iff.1 h
  refine ⟨m, hm, ?_, rfl⟩
  show (if n = k then m.change d f else m).client = m.client
  split <;> rfl

@[simp] theorem map_client_modify (made : List ClientRecord) (n : Nat) :
    (made.modify n (·.change d f)).map (·.client) = made.map (·.client) := by
  refine List.ext_getElem? fun k => ?_
  rw [List.getElem?_map, List.getElem?_map]
  cases hk : (made.modify n (·.change d f))[k]? with
  | none =>
    rw [List.getElem?_eq_none_iff, List.length_modify] at hk
    rw [List.getElem?_eq_none hk]
  | some m' =>
    obtain ⟨m, hm, hclient, -⟩ := getElem?_modify_change hk
    rw [hm, Option.map_some, Option.map_some, hclient]

end ClientRecord

namespace ClientQueue

def ofConfig (config : Config) (clock : Option ClockClient) (base : Nat) : ClientQueue :=
  { capacity := config.maxUserProcesses, base
    blank := fun fromProcess => .ofSize (config.bufferSize fromProcess) config.semaphoreQueueSize clock }

/-- The client that is made next. It gets the next two buffers. -/
def next (q : ClientQueue) (id : UInt32) : IpcClient :=
  { id, rx := q.base + 2 * q.made.length, tx := q.base + 2 * q.made.length + 1 }

def enqueue (q : ClientQueue) (id : UInt32) : ClientQueue :=
  { q with
    made := q.made ++ [{ client := q.next id, buffer := q.blank }]
    registered := q.registered ++ [q.next id] }

def perform (q : ClientQueue) : ClientRequest → ClientAnswer × ClientQueue
  | .create id =>
    if q.registered.length = q.capacity then (.refused (.exhausted q.capacity), q)
    else (.created (q.next id), q.enqueue id)
  | .remove id =>
    if q.registered.any fun c => c.id == id then
      (.removed, { q with registered := q.registered.eraseP fun c => c.id == id })
    else (.refused .notFound, q)
  | .find id => (.found (q.registered.find? fun c => c.id == id), q)
  | .size => (.counted q.registered.length, q)
  | .use n fromProcess f => (.used, { q with made := q.made.modify n (·.change fromProcess f) })

def serve (q : ClientQueue) : List ClientRequest → List ClientAnswer × ClientQueue
  | [] => ([], q)
  | request :: requests =>
    let (answer, q) := q.perform request
    let (answers, q) := serve q requests
    (answer :: answers, q)

theorem blank_perform (q : ClientQueue) (request : ClientRequest) :
    (q.perform request).2.blank = q.blank := by
  cases request <;> simp only [perform] <;> split <;> rfl

theorem blank_serve (q : ClientQueue) (requests : List ClientRequest) :
    (q.serve requests).2.blank = q.blank := by
  induction requests generalizing q with
  | nil => rfl
  | cons request requests ih => exact (ih _).trans (q.blank_perform request)

/-- A client that is removed leaves room for one with its number, which comes last. -/
theorem serve_renew {q : ClientQueue} {id : UInt32} {old : IpcClient}
    (hold : q.registered.find? (fun client => client.id == id) = some old)
    (hbounded : q.registered.length ≤ q.capacity) :
    q.serve [.remove id, .create id] = ([.removed, .created (q.next id)],
      enqueue { q with registered := q.registered.eraseP fun client => client.id == id } id) := by
  have hmem : old ∈ q.registered := List.mem_of_find?_eq_some hold
  have hid : (old.id == id) = true := by simpa using List.find?_some hold
  have hany : (q.registered.any fun client => client.id == id) = true :=
    List.any_eq_true.2 ⟨old, hmem, hid⟩
  have hroom : (q.registered.eraseP fun client => client.id == id).length ≠ q.capacity := by
    have hlength := List.length_eraseP_of_mem (p := fun client => client.id == id) hmem hid
    have hpos := List.length_pos_of_mem hmem
    omega
  simp only [serve, perform, hany, if_true, if_neg hroom]
  rfl

end ClientQueue

/-! ## The registry and its clients -/

/-- A registry, the buffers of its clients, and the handles that it gave out. -/
structure Clientele where
  registry : IpcRegistry
  buffers : Array SharedBuffer
  handles : List IpcClient := []

namespace Clientele

def perform (c : Clientele) : ClientRequest → ClientAnswer × Clientele
  | .create id =>
    match c.registry.create c.buffers id with
    | .ok (client, registry, buffers) =>
      (.created client, { registry, buffers, handles := c.handles ++ [client] })
    | .error e => (.refused e, c)
  | .remove id =>
    match c.registry.remove id with
    | .ok registry => (.removed, { c with registry })
    | .error e => (.refused e, c)
  | .find id => (.found (c.registry.client? id), c)
  | .size => (.counted c.registry.size, c)
  | .use n fromProcess f =>
    match c.handles[n]? with
    | some client => (.used, { c with buffers := c.buffers.modify (client.buffer fromProcess) f })
    | none => (.used, c)

def serve (c : Clientele) : List ClientRequest → List ClientAnswer × Clientele
  | [] => ([], c)
  | request :: requests =>
    let (answer, c) := c.perform request
    let (answers, c) := serve c requests
    (answer :: answers, c)

/-- The registry and the buffers are what the queue says. -/
structure Mirrors (c : Clientele) (q : ClientQueue) : Prop where
  sound : c.registry.Sound
  registered : c.registry.toList = q.registered
  capacity : c.registry.clients.capacity = q.capacity
  blank : c.registry.blank = q.blank
  handles : c.handles = q.made.map (·.client)
  order : q.registered.Sublist (q.made.map (·.client))
  next : c.buffers.size = q.base + 2 * q.made.length
  named : ∀ (n : Nat) m, q.made[n]? = some m → ∀ d, m.client.buffer d = q.base + 2 * n + d.toNat
  buffers : ∀ (n : Nat) m, q.made[n]? = some m → ∀ d, c.buffers[m.client.buffer d]? = some (m.buffer d)

variable {c : Clientele} {q : ClientQueue}

namespace Mirrors

theorem apart (hm : c.Mirrors q) {n k : Nat} {m l : ClientRecord} (hn : q.made[n]? = some m)
    (hk : q.made[k]? = some l) {d e : Bool} (h : m.client.buffer d = l.client.buffer e) :
    n = k ∧ d = e := by
  have hplace : q.base + 2 * n + d.toNat = q.base + 2 * k + e.toNat :=
    (hm.named n m hn d).symm.trans (h.trans (hm.named k l hk e))
  have hd := d.toNat_lt
  have he := e.toNat_lt
  refine ⟨by omega, ?_⟩
  have heq : d.toNat = e.toNat := by omega
  cases d <;> cases e <;> first | rfl | cases heq

theorem enqueue (hm : c.Mirrors q) {id : UInt32} {registry : IpcRegistry}
    (hsound : registry.Sound) (hlist : registry.toList = c.registry.toList ++ [q.next id])
    (hcapacity : registry.clients.capacity = c.registry.clients.capacity)
    (hblank : registry.blank = c.registry.blank) :
    Mirrors { registry, buffers := (c.buffers.push (c.registry.blank false)).push (c.registry.blank true)
              handles := c.handles ++ [q.next id] } (q.enqueue id) := by
  have hmade : ∀ (n : Nat) m, (q.enqueue id).made[n]? = some m →
      q.made[n]? = some m ∨ (n = q.made.length ∧ m = { client := q.next id, buffer := q.blank }) := by
    intro n m hn
    rw [ClientQueue.enqueue, List.getElem?_append] at hn
    split at hn
    · exact .inl hn
    · rw [List.getElem?_singleton] at hn
      split at hn
      · exact .inr ⟨by omega, (Option.some.inj hn).symm⟩
      · cases hn
  refine ⟨hsound, ?_, hcapacity.trans hm.capacity, hblank.trans hm.blank, ?_, ?_, ?_, ?_, ?_⟩
  · rw [hlist, hm.registered]
    rfl
  · rw [hm.handles, ClientQueue.enqueue, List.map_append]
    rfl
  · rw [ClientQueue.enqueue, List.map_append]
    exact hm.order.append (List.Sublist.refl _)
  · have hnext := hm.next
    simp only [ClientQueue.enqueue, Array.size_push, List.length_append, List.length_singleton]
    omega
  · intro n m hn d
    rcases hmade n m hn with hold | ⟨rfl, rfl⟩
    · exact hm.named n m hold d
    · cases d <;> rfl
  · intro n m hn d
    rcases hmade n m hn with hold | ⟨rfl, rfl⟩
    · have hbuffer := hm.buffers n m hold d
      have hlt := (Array.getElem?_eq_some_iff.1 hbuffer).1
      rw [Array.getElem?_push, Array.getElem?_push, Array.size_push, if_neg (by omega), if_neg (by omega)]
      exact hbuffer
    · rw [← hm.blank]
      cases d with
      | false =>
        rw [show (q.next id).buffer false = c.buffers.size from hm.next.symm, Array.getElem?_push,
          Array.size_push, if_neg (by omega), Array.getElem?_push, if_pos rfl]
      | true =>
        rw [show (q.next id).buffer true = c.buffers.size + 1 from congrArg (· + 1) hm.next.symm,
          Array.getElem?_push, Array.size_push, if_pos rfl]

theorem dequeue (hm : c.Mirrors q) {id : UInt32} {registry : IpcRegistry} (hsound : registry.Sound)
    (hlist : registry.toList = c.registry.toList.eraseP fun client => client.id == id)
    (hcapacity : registry.clients.capacity = c.registry.clients.capacity)
    (hblank : registry.blank = c.registry.blank) :
    Mirrors { c with registry }
      { q with registered := q.registered.eraseP fun client => client.id == id } :=
  { hm with
    sound := hsound
    registered := hm.registered ▸ hlist
    capacity := hcapacity.trans hm.capacity
    blank := hblank.trans hm.blank
    order := List.eraseP_sublist.trans hm.order }

theorem use (hm : c.Mirrors q) {n : Nat} {m : ClientRecord} (hn : q.made[n]? = some m)
    (fromProcess : Bool) (f : SharedBuffer → SharedBuffer) :
    Mirrors { c with buffers := c.buffers.modify (m.client.buffer fromProcess) f }
      { q with made := q.made.modify n (·.change fromProcess f) } := by
  have hclients := ClientRecord.map_client_modify (d := fromProcess) (f := f) q.made n
  refine ⟨hm.sound, hm.registered, hm.capacity, hm.blank, hm.handles.trans hclients.symm,
    hclients ▸ hm.order, by simpa using hm.next, fun k l' hk d => ?_, fun k l' hk d => ?_⟩
  · obtain ⟨l, hl, hclient, -⟩ := ClientRecord.getElem?_modify_change hk
    rw [hclient]
    exact hm.named k l hl d
  · obtain ⟨l, hl, hclient, rfl⟩ := ClientRecord.getElem?_modify_change hk
    rw [hclient, Array.getElem?_modify, hm.buffers k l hl d]
    by_cases hsame : m.client.buffer fromProcess = l.client.buffer d
    · obtain ⟨rfl, rfl⟩ := hm.apart hn hl hsame
      rw [if_pos hsame, if_pos rfl, ClientRecord.buffer_change_self, Option.map_some]
    · rw [if_neg hsame]
      split
      · rename_i hnk
        obtain rfl : m = l := by
          rw [hnk, hl] at hn
          exact (Option.some.inj hn).symm
        have hd : d ≠ fromProcess := fun h => hsame (by rw [h])
        rw [ClientRecord.buffer_change_ne hd]
      · rfl

theorem perform (hm : c.Mirrors q) (request : ClientRequest) :
    (c.perform request).1 = (q.perform request).1 ∧
      (c.perform request).2.Mirrors (q.perform request).2 := by
  cases request with
  | create id =>
    rw [Clientele.perform, ClientQueue.perform, ← hm.registered, ← hm.capacity]
    rcases IpcRegistry.create_cases hm.sound c.buffers id with ⟨hfull, hcreate⟩ |
      ⟨hroom, client, registry, buffers, hcreate, -, hsound, hlist, hcapacity⟩
    · rw [hcreate, if_pos hfull]
      exact ⟨rfl, hm⟩
    · obtain ⟨hclient, hblank, rfl⟩ := IpcRegistry.create_eq hcreate
      obtain rfl : client = q.next id := by rw [hclient, ClientQueue.next, hm.next]
      rw [hcreate, if_neg (Nat.ne_of_lt hroom)]
      exact ⟨rfl, hm.enqueue hsound hlist hcapacity hblank⟩
  | remove id =>
    rw [Clientele.perform, ClientQueue.perform, ← hm.registered]
    rcases IpcRegistry.remove_cases hm.sound id with ⟨hnone, hremove⟩ |
      ⟨front, client, back, registry, hsplit, hid, hfront, hremove, hsound, hlist, hcapacity⟩
    · have hany : (c.registry.toList.any fun client => client.id == id) = false := by
        simpa using hnone
      rw [hremove, hany]
      exact ⟨rfl, hm⟩
    · have hany : (c.registry.toList.any fun client => client.id == id) = true := by
        rw [hsplit]
        simp [hid]
      have herase : registry.toList = c.registry.toList.eraseP fun client => client.id == id := by
        rw [hlist, hsplit, List.eraseP_append_right _ (by simpa using hfront),
          List.eraseP_cons_of_pos (by simpa using hid)]
      rw [hremove, if_pos hany, hm.registered]
      exact ⟨rfl, hm.dequeue hsound herase hcapacity (IpcRegistry.blank_remove hremove)⟩
  | find id =>
    rw [Clientele.perform, ClientQueue.perform, IpcRegistry.client?, hm.registered]
    exact ⟨rfl, hm⟩
  | size =>
    rw [Clientele.perform, ClientQueue.perform, hm.sound.size_eq, hm.registered]
    exact ⟨rfl, hm⟩
  | use n fromProcess f =>
    have hhandle : c.handles[n]? = q.made[n]?.map (·.client) := by
      rw [hm.handles, List.getElem?_map]
    rw [Clientele.perform, ClientQueue.perform, hhandle]
    cases hn : q.made[n]? with
    | none =>
      rw [List.modify_eq_self (List.getElem?_eq_none_iff.1 hn)]
      exact ⟨rfl, hm⟩
    | some m => exact ⟨rfl, hm.use hn fromProcess f⟩

theorem serve (hm : c.Mirrors q) (requests : List ClientRequest) :
    (c.serve requests).1 = (q.serve requests).1 ∧ (c.serve requests).2.Mirrors (q.serve requests).2 := by
  induction requests generalizing c q with
  | nil => exact ⟨rfl, hm⟩
  | cons request requests ih =>
    obtain ⟨hanswer, hnext⟩ := hm.perform request
    obtain ⟨hanswers, hlast⟩ := ih hnext
    exact ⟨congrArg₂ List.cons hanswer hanswers, hlast⟩

end Mirrors

theorem mirrors_ofConfig {config : Config} (hmax : 0 < config.maxUserProcesses)
    (clock : Option ClockClient) :
    ∃ r, IpcRegistry.ofConfig config clock = .ok r ∧ ∀ buffers : Array SharedBuffer,
      Mirrors { registry := r, buffers } (.ofConfig config clock buffers.size) := by
  obtain ⟨r, hr, hsound, hlist, hcapacity⟩ := IpcRegistry.ofConfig_spec hmax clock
  refine ⟨r, hr, fun buffers => ⟨hsound, hlist, hcapacity, ?_, rfl, List.Sublist.refl _, rfl, ?_, ?_⟩⟩
  · exact funext (IpcRegistry.blank_ofConfig hr)
  · exact fun n m hn => by cases hn
  · exact fun n m hn => by cases hn

/-! ## What the queue says of a registry -/

/-- All that can be seen of a registry and its clients is what the queue says. -/
structure Agrees (c : Clientele) (q : ClientQueue) : Prop where
  registered : c.registry.toList = q.registered
  /-- No slot in use is empty. -/
  filled : c.registry.clients.toList.map (·.2) = q.registered.map some
  size : c.registry.size = q.registered.length
  bounded : q.registered.length ≤ q.capacity
  /-- The queue is in the order of creation. -/
  order : q.registered.Sublist (q.made.map (·.client))
  client? : ∀ id, c.registry.client? id = q.registered.find? fun client => client.id == id
  handles : c.handles = q.made.map (·.client)
  /-- No buffer belongs to two clients, removed ones among them, or to one in both directions. -/
  apart : ∀ (n k : Nat) m l, q.made[n]? = some m → q.made[k]? = some l →
    ∀ d e, m.client.buffer d = l.client.buffer e → n = k ∧ d = e
  /-- Whoever has a handle finds the buffers of that client. -/
  buffers : ∀ m ∈ q.made, ∀ d, c.buffers[m.client.buffer d]? = some (m.buffer d)
  /-- What is refused changes nothing. -/
  unchanged : ∀ request, (c.perform request).1.failed = true → (c.perform request).2 = c

theorem perform_failed {request : ClientRequest} (hfailed : (c.perform request).1.failed = true) :
    (c.perform request).2 = c := by
  cases request with
  | create id | remove id =>
    simp only [perform] at hfailed ⊢
    split at hfailed
    · cases hfailed
    · rfl
  | find id | size => cases hfailed
  | use n fromProcess f =>
    simp only [perform] at hfailed
    split at hfailed <;> cases hfailed

theorem Mirrors.agrees (hm : c.Mirrors q) : c.Agrees q where
  registered := hm.registered
  filled := hm.sound.filled.trans (congrArg _ hm.registered)
  size := hm.sound.size_eq.trans (congrArg _ hm.registered)
  bounded := hm.registered ▸ hm.capacity ▸ hm.sound.length_le
  order := hm.order
  client? _ := congrArg _ hm.registered
  handles := hm.handles
  apart _ _ _ _ hn hk _ _ := hm.apart hn hk
  buffers m hmem d := by
    obtain ⟨n, hn⟩ := List.mem_iff_getElem?.1 hmem
    exact hm.buffers n m hn d
  unchanged _ := perform_failed

/-- A client is removed and its number registered again: the new one has fresh buffers, and those of every
handle that was given out before, to the removed one too, are as they were. -/
structure Renews (config : Config) (c : Clientele) (old new : IpcClient) (after : Clientele) : Prop where
  id : new.id = old.id
  registered :
    after.registry.toList = (c.registry.toList.eraseP fun client => client.id == old.id) ++ [new]
  fresh : ∀ d, ∃ b, after.buffers[new.buffer d]? = some b ∧ b.IsFresh (config.bufferSize d)
  held : old ∈ c.handles
  kept : ∀ handle ∈ c.handles, ∀ d, ∃ b, c.buffers[handle.buffer d]? = some b ∧
    after.buffers[handle.buffer d]? = some b ∧ ∀ e, new.buffer e ≠ handle.buffer d

theorem Mirrors.renews (hm : c.Mirrors q) {config : Config}
    (hblank : ∀ d, (q.blank d).IsFresh (config.bufferSize d)) {id : UInt32} {old : IpcClient}
    (hold : c.registry.client? id = some old) :
    ∃ after, c.serve [.remove id, .create id] = ([.removed, .created (q.next id)], after) ∧
      Renews config c old (q.next id) after := by
  rw [hm.agrees.client?] at hold
  have hid : old.id = id := by simpa using List.find?_some hold
  let renewed : ClientQueue :=
    ClientQueue.enqueue { q with registered := q.registered.eraseP fun client => client.id == id } id
  obtain ⟨hanswers, hafter⟩ := hm.serve [.remove id, .create id]
  rw [ClientQueue.serve_renew hold hm.agrees.bounded] at hanswers hafter
  -- the new client is the last that was made
  have hnew : renewed.made[q.made.length]? =
      some { client := q.next id, buffer := q.blank } := List.getElem?_concat_length
  have hmade : ∀ (n : Nat) m, q.made[n]? = some m → renewed.made[n]? = some m :=
    fun n m hn => (List.getElem?_append_left (List.getElem?_eq_some_iff.1 hn).1).trans hn
  refine ⟨_, Prod.ext hanswers rfl, hid.symm, ?_, fun d => ?_, ?_, fun handle hhandle d => ?_⟩
  · rw [hid, hm.registered]
    exact hafter.registered
  · exact ⟨_, hafter.buffers _ _ hnew d, hblank d⟩
  · rw [hm.handles]
    exact hm.order.subset (List.mem_of_find?_eq_some hold)
  · rw [hm.handles] at hhandle
    obtain ⟨m, hm', rfl⟩ := List.mem_map.1 hhandle
    obtain ⟨n, hn⟩ := List.mem_iff_getElem?.1 hm'
    refine ⟨m.buffer d, hm.buffers n m hn d, hafter.buffers n m (hmade n m hn) d, fun e heq => ?_⟩
    have hlast := (hafter.apart hnew (hmade n m hn) heq).1
    exact absurd (List.getElem?_eq_some_iff.1 hn).1 (by omega)

/-- The registry is a bounded queue of clients. -/
theorem refines_client_queue {config : Config} (hmax : 0 < config.maxUserProcesses)
    (clock : Option ClockClient) :
    ∃ r, IpcRegistry.ofConfig config clock = .ok r ∧
      ∀ (buffers : Array SharedBuffer) (requests : List ClientRequest),
        let served := serve { registry := r, buffers } requests
        let queued := ClientQueue.serve (.ofConfig config clock buffers.size) requests
        served.1 = queued.1 ∧ served.2.Agrees queued.2 ∧
          ∀ id old, served.2.registry.client? id = some old → ∃ new after,
            served.2.serve [.remove id, .create id] = ([.removed, .created new], after) ∧
              Renews config served.2 old new after := by
  obtain ⟨r, hr, hstart⟩ := mirrors_ofConfig hmax clock
  refine ⟨r, hr, fun buffers requests => ?_⟩
  obtain ⟨hanswers, hlast⟩ := (hstart buffers).serve requests
  refine ⟨hanswers, hlast.agrees, fun id old hold => ⟨_, hlast.renews (fun d => ?_) hold⟩⟩
  rw [ClientQueue.blank_serve]
  exact SharedBuffer.isFresh_ofSize ..

/-- Two places. Of two clients with one number the first writes to its buffer and is removed, and the number
is registered once more. -/
theorem refines_client_queue_same_number :
    let config : Config := { maxUserProcesses := 2, ipcRxBufSize := 2, ipcTxBufSize := 1 }
    0 < config.maxUserProcesses ∧ ∃ r, IpcRegistry.ofConfig config none = .ok r ∧
      let served := serve { registry := r, buffers := #[] } [.create 7, .create 7, .create 9,
        .use 0 true fun b => { b with data := b.data.write fun _ => [5] }, .remove 7, .find 7, .create 7,
        .remove 9, .size]
      served.1 = [.created ⟨7, 0, 1⟩, .created ⟨7, 2, 3⟩, .refused (.exhausted 2), .used, .removed,
        .found (some ⟨7, 2, 3⟩), .created ⟨7, 4, 5⟩, .refused .notFound, .counted 2] ∧
      served.2.registry.toList = [⟨7, 2, 3⟩, ⟨7, 4, 5⟩] ∧
      served.2.buffers[1]?.map SharedBuffer.bytes = some [5] ∧
      served.2.buffers[5]?.map SharedBuffer.bytes = some [0] := by
  intro config
  have hmax : 0 < config.maxUserProcesses := by decide
  obtain ⟨r, hr, hruns⟩ := refines_client_queue hmax none
  obtain ⟨hanswers, hagrees, -⟩ := hruns #[] [.create 7, .create 7, .create 9,
    .use 0 true fun b => { b with data := b.data.write fun _ => [5] }, .remove 7, .find 7, .create 7,
    .remove 9, .size]
  refine ⟨hmax, r, hr, hanswers, hagrees.registered, ?_, ?_⟩
  · exact congrArg (Option.map SharedBuffer.bytes) (hagrees.buffers _ List.mem_cons_self true)
  · exact congrArg (Option.map SharedBuffer.bytes)
      (hagrees.buffers _ (List.mem_of_getElem? (i := 2) rfl) true)

end Clientele

end Osal
