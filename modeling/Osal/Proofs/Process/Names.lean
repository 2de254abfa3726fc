import Mathlib.Data.List.Basic
import Mathlib.Data.List.Forall2
import Osal.Proofs.Process.Threads
import Osal.Proofs.Text.Truncate

/-!
# The names of threads that are given none

A thread that is given no name is named after its process and the position of its slot. The census of
a process counts its threads with the names that they were given, and a town has several processes,
which spawn and lose threads in any order. `default_names_unique`: if no two processes of a town have
the same number, then no two live threads that were given no name have the same one, as long as their
whole names are short enough. What other threads are called, and who had the slots before, does not
matter; nor does a spawn that the host fails, which takes a slot as a thread does that ends at once.
-/

namespace Osal

/-! ## Names of slots -/

namespace Thread

variable {n : Nat} {c : Char}

theorem toList_twoDigits (n : Nat) :
    (twoDigits n).toList = (if n < 10 then ['0'] else []) ++ Nat.toDigits 10 n := by
  rw [twoDigits]
  split
  · show ("0" ++ n.repr).toList = _
    rw [String.toList_append, Nat.toList_repr]
    rfl
  · show n.repr.toList = _
    rw [Nat.toList_repr]
    rfl

theorem isDigit_of_mem_twoDigits (h : c ∈ (twoDigits n).toList) : c.isDigit = true := by
  rw [toList_twoDigits, List.mem_append] at h
  rcases h with hzero | hdigits
  · split at hzero
    · obtain rfl := List.mem_singleton.1 hzero
      rfl
    · cases hzero
  · exact Nat.isDigit_of_mem_toDigits (b := 10) (by decide) (by decide) hdigits

theorem ofDigitChars_twoDigits (n : Nat) : Nat.ofDigitChars 10 (twoDigits n).toList 0 = n := by
  rw [toList_twoDigits]
  split
  · rw [List.singleton_append, Nat.ofDigitChars_cons]
    exact Nat.ofDigitChars_ten_toDigits
  · exact Nat.ofDigitChars_ten_toDigits

theorem twoDigits_injective : Function.Injective twoDigits := fun m n heq => by
  rw [← ofDigitChars_twoDigits m, heq, ofDigitChars_twoDigits]

/-- The characters of a whole name, parted at the `t`, which no number has. -/
theorem toList_defaultName (pid : Pid) (slot : Nat) :
    (defaultName pid slot).toList =
      'p' :: '-' :: (((twoDigits pid.toNat).toList ++ ['-']) ++
        't' :: '-' :: (twoDigits (slot + 1)).toList) := by
  simp [defaultName, String.toList_append]

theorem defaultName_inj {pid pid' : Pid} {slot slot' : Nat}
    (h : defaultName pid slot = defaultName pid' slot') : pid = pid' ∧ slot = slot' := by
  have hnotMem : ∀ {c : Char} {n : Nat}, c.isDigit = false → c ∉ (twoDigits n).toList :=
    fun hc hmem => Bool.false_ne_true (hc.symm.trans (isDigit_of_mem_twoDigits hmem))
  have hparts := congrArg String.toList h
  rw [toList_defaultName, toList_defaultName, List.cons_inj_right, List.cons_inj_right,
    List.append_cons_inj_of_notMem (by simp [hnotMem]) (by simp [hnotMem])] at hparts
  obtain ⟨hpid, -, hslot⟩ := hparts
  have hpid := twoDigits_injective (String.toList_injective (List.append_cancel_right hpid))
  have hslot := twoDigits_injective (String.toList_injective (List.cons.inj hslot).2)
  exact ⟨UInt32.toNat_inj.1 hpid, Nat.succ.inj hslot⟩

end Thread

namespace ProcessEnv

theorem threadName_none {p : ProcessEnv} {slot : Nat}
    (h : (Thread.defaultName p.pid slot).utf8ByteSize ≤ p.config.threadNameMaxLen) :
    p.threadName none slot = Thread.defaultName p.pid slot := by
  rw [threadName, Option.getD_none, Text.truncate_eq_self_iff.2 h]

/-- Whether a thread has the name that a process gives it in its slot. -/
def Names (p : ProcessEnv) (given : Option String) (thread : Thread) : Prop :=
  thread.name = p.threadName given thread.slot.index

end ProcessEnv

/-! ## What never changes of a thread -/

def Thread.atSpawn (thread : Thread) : Thread := { thread with phase := .running }

@[simp] theorem ProcessEnv.atSpawn_finish (p : ProcessEnv) (thread : Thread) :
    (p.finish thread).1.atSpawn = thread.atSpawn := by
  rw [finish]
  split <;> rfl

namespace Tenancy

variable {t : Tenancy} {k : Nat} {thread : Thread}

def givenBy (t : Tenancy) : TenancyEvent → List (Option String)
  | .spawn name => if (t.process.spawn name).isOk then [name] else []
  | _ => []

theorem map_atSpawn_set (hk : t.threads[k]? = some thread) {thread' : Thread}
    (hsame : thread'.atSpawn = thread.atSpawn) :
    (t.threads.set k thread').map Thread.atSpawn = t.threads.map Thread.atSpawn := by
  obtain ⟨before, after, hsplit, hset⟩ := split_of_thread hk
  rw [hset, hsplit, List.map_append, List.map_append, List.map_cons, List.map_cons, hsame]

theorem map_atSpawn_handle {event : TenancyEvent} (h : ∀ name, event ≠ .spawn name) :
    (t.handle event).threads.map Thread.atSpawn = t.threads.map Thread.atSpawn := by
  cases event with
  | spawn name => exact absurd rfl (h name)
  | leave k routineEnd =>
    simp only [handle]
    split
    · rfl
    · rename_i hk
      split
      · exact map_atSpawn_set hk rfl
      · rfl
  | finish k =>
    simp only [handle]
    split
    · rfl
    · rename_i hk
      exact map_atSpawn_set hk (ProcessEnv.atSpawn_finish ..)

theorem Settled.pairwise_index (h : t.Settled) :
    t.threads.Pairwise fun thread other => thread.isFinished = false → other.isFinished = false →
      thread.slot.index ≠ other.slot.index := by
  obtain ⟨free, alloc, hpool⟩ := h.pool
  have hnodup : ((t.live.map (·.slot)).map (·.index)).Nodup := by
    rw [(h.slots.map _).nodup_iff, List.map_map]
    exact hpool.map_index_toList ▸ hpool.alloc_holds.nodup
  rw [List.map_map, List.Nodup, List.pairwise_map, live, List.pairwise_filter] at hnodup
  exact hnodup.imp fun hne hthread hother => hne (by simp [hthread]) (by simp [hother])

theorem Settled.eq_of_index (h : t.Settled) {l : Nat} {other : Thread}
    (hk : t.threads[k]? = some thread) (hl : t.threads[l]? = some other)
    (hthread : thread.isFinished = false) (hother : other.isFinished = false)
    (hindex : thread.slot.index = other.slot.index) : k = l := by
  obtain ⟨hklt, rfl⟩ := List.getElem?_eq_some_iff.1 hk
  obtain ⟨hllt, rfl⟩ := List.getElem?_eq_some_iff.1 hl
  have hpairs := List.pairwise_iff_getElem.1 h.pairwise_index
  rcases Nat.lt_trichotomy k l with hlt | heq | hgt
  · exact absurd hindex (hpairs k l hklt hllt hlt hthread hother)
  · exact heq
  · exact absurd hindex.symm (hpairs l k hllt hklt hgt hother hthread)

end Tenancy

/-! ## Censuses -/

/-- The threads of a process, and the names that they were given. -/
structure Census where
  tenancy : Tenancy
  /-- The name that each thread was given, if any. -/
  given : List (Option String) := []

namespace Census

variable {c : Census} {k : Nat} {thread : Thread}

def handle (c : Census) (event : TenancyEvent) : Census :=
  { tenancy := c.tenancy.handle event, given := c.given ++ c.tenancy.givenBy event }

def run (c : Census) (events : List TenancyEvent) : Census := events.foldl handle c

/-- Each thread has the name that it was given, or that of its slot. -/
structure Named (c : Census) : Prop where
  settled : c.tenancy.Settled
  names : List.Forall₂ c.tenancy.process.Names c.given c.tenancy.threads

theorem Named.spawn (h : c.Named) (name : Option String) : (c.handle (.spawn name)).Named := by
  refine ⟨Tenancy.settled_handle h.settled (.spawn name), ?_⟩
  cases hspawn : c.tenancy.process.spawn name with
  | error e =>
    simp only [Census.handle, Tenancy.handle, Tenancy.givenBy, hspawn]
    exact (List.append_nil _).symm ▸ h.names
  | ok spawned =>
    obtain ⟨thread, process⟩ := spawned
    obtain ⟨hname, threads, rfl⟩ := ProcessEnv.of_spawn hspawn
    simp only [Census.handle, Tenancy.handle, Tenancy.givenBy, hspawn]
    exact List.rel_append h.names (.cons hname .nil)

theorem Named.stay (h : c.Named) {event : TenancyEvent} (hevent : ∀ name, event ≠ .spawn name) :
    (c.handle event).Named := by
  refine ⟨Tenancy.settled_handle h.settled event, ?_⟩
  obtain ⟨threads, hprocess⟩ := c.tenancy.process_handle event
  have hgiven : c.tenancy.givenBy event = [] := by
    cases event with
    | spawn name => exact absurd rfl (hevent name)
    | leave k routineEnd => rfl
    | finish k => rfl
  -- whether a thread is rightly named does not depend on how far it got
  have hnames : List.Forall₂ c.tenancy.process.Names c.given
      (c.tenancy.threads.map Thread.atSpawn) := List.forall₂_map_right_iff.2 h.names
  rw [← Tenancy.map_atSpawn_handle hevent, List.forall₂_map_right_iff] at hnames
  rw [Census.handle, hgiven, List.append_nil, hprocess]
  exact hnames

theorem Named.handle (h : c.Named) (event : TenancyEvent) : (c.handle event).Named := by
  cases event with
  | spawn name => exact h.spawn name
  | leave k routineEnd => exact h.stay nofun
  | finish k => exact h.stay nofun

theorem Named.run (h : c.Named) (events : List TenancyEvent) : (c.run events).Named := by
  unfold Census.run
  induction events generalizing c with
  | nil => exact h
  | cons event events ih => exact ih (h.handle event)

theorem named_ofConfig {p : ProcessEnv} {pid : Pid} {name : String} {config : Config}
    {clock : Option ClockClient} {ipc : Option IpcClient}
    (hmade : ProcessEnv.ofConfig pid name config clock ipc = .ok p) :
    Named { tenancy := { process := p } } :=
  ⟨Tenancy.settled_ofConfig (ProcessEnv.pos_of_ofConfig hmade) hmade, .nil⟩

@[simp] theorem pid_run (c : Census) (events : List TenancyEvent) :
    (c.run events).tenancy.process.pid = c.tenancy.process.pid := by
  unfold run
  induction events generalizing c with
  | nil => rfl
  | cons event events ih =>
    obtain ⟨threads, hprocess⟩ := c.tenancy.process_handle event
    refine (ih (c.handle event)).trans ?_
    rw [handle, hprocess]

/-- A live thread that was given no name, and the whole name of its slot is short enough. -/
structure Nameless (c : Census) (k : Nat) (thread : Thread) : Prop where
  spawned : c.tenancy.threads[k]? = some thread
  given : c.given[k]? = some none
  live : thread.isFinished = false
  fits : (Thread.defaultName c.tenancy.process.pid thread.slot.index).utf8ByteSize ≤
    c.tenancy.process.config.threadNameMaxLen

instance (c : Census) (k : Nat) (thread : Thread) : Decidable (c.Nameless k thread) :=
  decidable_of_iff (c.tenancy.threads[k]? = some thread ∧ c.given[k]? = some none ∧
      thread.isFinished = false ∧
      (Thread.defaultName c.tenancy.process.pid thread.slot.index).utf8ByteSize ≤
        c.tenancy.process.config.threadNameMaxLen)
    ⟨fun ⟨hspawned, hgiven, hlive, hfits⟩ => ⟨hspawned, hgiven, hlive, hfits⟩,
      fun h => ⟨h.spawned, h.given, h.live, h.fits⟩⟩

theorem Named.name_eq (h : c.Named) (hthread : c.Nameless k thread) :
    thread.name = Thread.defaultName c.tenancy.process.pid thread.slot.index := by
  obtain ⟨hlt, hget⟩ := List.getElem?_eq_some_iff.1 hthread.spawned
  obtain ⟨hlt', hget'⟩ := List.getElem?_eq_some_iff.1 hthread.given
  have hname := h.names.get hlt' hlt
  rw [List.get_eq_getElem, List.get_eq_getElem, hget, hget'] at hname
  exact hname.trans (ProcessEnv.threadName_none hthread.fits)

end Census

/-! ## Towns -/

/-- Several processes, each with its threads. -/
abbrev Town (ι : Type) := ι → Census

namespace Town

variable {ι : Type} [DecidableEq ι]

def ofProcesses (processes : ι → ProcessEnv) : Town ι :=
  fun i => { tenancy := { process := processes i } }

def run (t : Town ι) (events : List (ι × TenancyEvent)) : Town ι :=
  events.foldl (fun t event => Function.update t event.1 ((t event.1).handle event.2)) t

theorem run_apply (t : Town ι) (events : List (ι × TenancyEvent)) (i : ι) :
    t.run events i = (t i).run ((events.filter (·.1 = i)).map (·.2)) := by
  unfold run
  induction events generalizing t with
  | nil => rfl
  | cons event events ih =>
    rw [List.foldl_cons, ih]
    by_cases hi : event.1 = i
    · subst hi
      rw [Function.update_self, List.filter_cons_of_pos (by simp), List.map_cons]
      rfl
    · rw [Function.update_of_ne (Ne.symm hi), List.filter_cons_of_neg (by simpa using hi)]

/-- What holds of the names of the live threads that were given none. -/
structure WellNamed (t : Town ι) : Prop where
  whole : ∀ {i k thread}, (t i).Nameless k thread →
    thread.name = Thread.defaultName (t i).tenancy.process.pid thread.slot.index
  unique : ∀ {i j k l thread other}, (t i).Nameless k thread → (t j).Nameless l other →
    thread.name = other.name → i = j ∧ k = l

/-- No two live threads that were given no name have the same one, whatever was spawned and has ended
in their processes. -/
theorem default_names_unique {processes : ι → ProcessEnv}
    (hmade : ∀ i, ∃ pid name config clock ipc,
      ProcessEnv.ofConfig pid name config clock ipc = .ok (processes i))
    (hpids : Function.Injective fun i => (processes i).pid) (events : List (ι × TenancyEvent)) :
    ((ofProcesses processes).run events).WellNamed := by
  have hnamed : ∀ i, ((ofProcesses processes).run events i).Named := by
    intro i
    obtain ⟨pid, name, config, clock, ipc, hmade⟩ := hmade i
    exact run_apply _ events i ▸ (Census.named_ofConfig hmade).run _
  have hpid : ∀ i, ((ofProcesses processes).run events i).tenancy.process.pid = (processes i).pid :=
    fun i => run_apply _ events i ▸ Census.pid_run ..
  refine ⟨fun hthread => (hnamed _).name_eq hthread, fun hthread hother heq => ?_⟩
  rw [(hnamed _).name_eq hthread, (hnamed _).name_eq hother] at heq
  obtain ⟨hsame, hindex⟩ := Thread.defaultName_inj heq
  rw [hpid, hpid] at hsame
  obtain rfl := hpids hsame
  exact ⟨rfl, (hnamed _).settled.eq_of_index hthread.spawned hother.spawned hthread.live
    hother.live hindex⟩

/-- A thread gets the slot of one that had the name of a thread in another process. -/
theorem default_names_unique_follower :
    let config : Config := { maxThreadsPerProcess := 2 }
    let events : List (Bool × TenancyEvent) :=
      [(false, .spawn none), (true, .spawn none), (false, .spawn (some "p-103-t-01")),
        (false, .leave 1 .panicked), (false, .finish 1), (false, .spawn none)]
    let first : Thread := { name := "p-03-t-01", pid := 3, slot := ⟨0, 0⟩ }
    let follower : Thread := { name := "p-03-t-02", pid := 3, slot := ⟨1, 1⟩ }
    let stranger : Thread := { name := "p-103-t-01", pid := 103, slot := ⟨0, 0⟩ }
    ∃ p q, ProcessEnv.ofConfig 3 "p" config none none = .ok p ∧
      ProcessEnv.ofConfig 103 "q" config none none = .ok q ∧
        let t := (ofProcesses fun i => bif i then q else p).run events
        t.WellNamed ∧ (t false).Nameless 0 first ∧ (t false).Nameless 2 follower ∧
          (t true).Nameless 0 stranger := by
  intro config events first follower stranger
  have hmax : 0 < config.maxThreadsPerProcess := by decide
  obtain ⟨_, -, -, hp, -⟩ := ProcessEnv.ofConfig_spec hmax 3 "p" none none
  obtain ⟨_, -, -, hq, -⟩ := ProcessEnv.ofConfig_spec hmax 103 "q" none none
  refine ⟨_, _, hp, hq, default_names_unique (fun i => ?_) (fun i j heq => ?_) events, ?_⟩
  · cases i with
    | false => exact ⟨_, _, _, _, _, hp⟩
    | true => exact ⟨_, _, _, _, _, hq⟩
  · cases i <;> cases j <;> first | rfl | cases heq
  · have hnameless : ((ProcessEnv.ofConfig 3 "p" config none none).toOption.bind fun p =>
        (ProcessEnv.ofConfig 103 "q" config none none).toOption.map fun q =>
          let t := (ofProcesses fun i => bif i then q else p).run events
          decide ((t false).Nameless 0 first ∧ (t false).Nameless 2 follower ∧
            (t true).Nameless 0 stranger)) = some true := by
      decide +kernel
    rw [hp, hq] at hnameless
    exact of_decide_eq_true (Option.some.inj hnameless)

end Town

end Osal
