import Osal.Proofs.Clock.Matching

/-!
# What the operations of a schedule do

`Schedule.Lockstep n s`: after `n` granted timeouts the pool and the capability space of `s` hold the
same timeouts. Under it each operation is a change to the list `pending` and to `wakeOf`, the
notification that a timeout signals: an insertion appends (`insert_of_lt`), a cancellation filters
(`cancel_of_mem`), and a fire removes or re-arms what is due (`fire_spec`). The branches for a table
that lacks what the other one has are never taken.
-/

namespace Osal

/-! ## Views -/

theorem TimeoutId.eq_of_cptr {a b : TimeoutId} (h : a.cptr = b.cptr) : a = b := by
  obtain ⟨p, hp⟩ := a
  obtain ⟨q, hq⟩ := b
  obtain rfl : p = q := h
  rfl

namespace TimeoutEntry

/-- Whether a fire at a tick delivers the timeout. -/
def isDue (now : Tick) (e : TimeoutEntry) : Bool := tickReached now e.nextFire

/-- What a fire at a tick leaves of a timeout. -/
def afterFire (now : Tick) (e : TimeoutEntry) : Option TimeoutEntry :=
  if e.isDue now then if e.periodic then some (e.rearm now) else none else some e

theorem id_of_afterFire {now : Tick} {e e' : TimeoutEntry} (h : e.afterFire now = some e') :
    e'.id = e.id ∧ e'.requester = e.requester ∧ e'.periodic = e.periodic ∧ e'.period = e.period := by
  unfold afterFire at h
  split at h
  · split at h
    · obtain rfl := Option.some.inj h
      exact ⟨rfl, rfl, rfl, rfl⟩
    · cases h
  · obtain rfl := Option.some.inj h
    exact ⟨rfl, rfl, rfl, rfl⟩

end TimeoutEntry

/-- The notifications after the timeouts of a list have signalled theirs. -/
def CapSpace.signalEach (caps : CapSpace NotificationId) (now : Tick) (entries : List TimeoutEntry)
    (wakes : Wakes) : Wakes :=
  entries.foldl (fun wakes e =>
    match caps.lookup e.id.cptr with
    | some cap => (wakes.signal cap.object (.timeout now)).2
    | none => wakes) wakes

namespace Schedule

def wakeOf (s : Schedule) (id : TimeoutId) : Option NotificationId :=
  (s.caps.lookup id.cptr).map (·.object)

/-- The pending timeouts that a fire at a tick delivers. -/
def due (s : Schedule) (now : Tick) : List TimeoutEntry := s.pending.filter (·.isDue now)

def nextId (s : Schedule) : TimeoutId := ⟨s.caps.next, s.caps.next_ne_null⟩

/-- The most timeouts that a schedule can name apart. -/
def maxGranted : Nat := 4294967295

/-- Pool and capability space hold the same timeouts, and names come from the counter. -/
structure Lockstep (granted : Nat) (s : Schedule) : Prop where
  pool : ∃ free alloc, s.entries.Sound free alloc
  equal : s.entries.equal = fun a b => a.id == b.id
  matched : Matched s.caps s.pending
  capacity : s.caps.capacity = s.capacity
  named : ∀ e ∈ s.pending, e.id.cptr.toNat ≤ granted
  next : granted < maxGranted → s.caps.next.toNat = granted + 1

variable {s : Schedule} {n : Nat} {id : TimeoutId} {now period : Tick} {requester : Badge}
  {periodic : Bool} {wake : NotificationId} {wakes : Wakes}

theorem Lockstep.size_eq (h : s.Lockstep n) : s.size = s.pending.length := by
  obtain ⟨free, alloc, hpool⟩ := h.pool
  rw [size, hpool.size_eq, pending, List.length_map]

theorem Lockstep.ids_nodup (h : s.Lockstep n) : (s.pending.map (·.id)).Nodup := by
  have hnodup := h.matched.nodup
  rw [← Function.comp_def TimeoutId.cptr TimeoutEntry.id, ← List.map_map] at hnodup
  exact hnodup.of_map _

theorem Lockstep.wakeOf_of_mem (h : s.Lockstep n) {e : TimeoutEntry} (he : e ∈ s.pending) :
    ∃ wake, s.wakeOf e.id = some wake := by
  obtain ⟨cap, hlookup, -⟩ := h.matched.lookup_of_mem he
  exact ⟨cap.object, by rw [wakeOf, hlookup]; rfl⟩

theorem Lockstep.size_le (h : s.Lockstep n) : s.size ≤ s.capacity := by
  rw [h.size_eq, ← h.matched.length_eq, ← h.capacity]
  exact s.caps.length_held_le

theorem Lockstep.isExhausted_iff (h : s.Lockstep n) :
    s.entries.isExhausted = true ↔ s.size = s.capacity := by
  obtain ⟨free, alloc, hpool⟩ := h.pool
  rw [hpool.isExhausted_iff, size, hpool.size_eq]
  exact Iff.rfl

theorem ofCapacity_spec {capacity : Nat} (hcap : 0 < capacity) :
    ∃ s, ofCapacity capacity = .ok s ∧ s.Lockstep 0 ∧ s.capacity = capacity ∧ s.pending = [] ∧
      s.caps.next = 1 := by
  obtain ⟨entries, hmade, hsound, hcapacity, -, hequal⟩ := Pool.ofFn_spec hcap
    (fun _ => TimeoutEntry.blank) (fun _ => TimeoutEntry.blank) (fun a b => a.id == b.id)
  have hpending : entries.toList = [] := by rw [hsound.toList_eq, List.filterMap_nil]
  refine ⟨{ entries, caps := .empty capacity }, ?_, ?_, hcapacity, ?_, rfl⟩
  · rw [ofCapacity, Pool.blank, hmade]
    rfl
  · refine ⟨⟨_, _, hsound⟩, hequal, ?_, ?_, ?_, fun _ => rfl⟩
    · rw [pending, hpending]
      exact Matched.empty capacity
    · rw [Schedule.capacity, hcapacity]
      exact List.length_replicate
    · rw [pending, hpending]
      exact fun e he => by cases he
  · rw [pending, hpending, List.map_nil]

theorem lockstep_of_ofCapacity {capacity : Nat} (hmade : ofCapacity capacity = .ok s) :
    s.Lockstep 0 ∧ s.pending = [] := by
  have hcap : 0 < capacity := by
    rcases Nat.eq_zero_or_pos capacity with rfl | hpos
    · cases hmade
    · exact hpos
  obtain ⟨_, hmade', hlock, -, hempty, -⟩ := ofCapacity_spec hcap
  obtain rfl := Except.ok.inj (hmade.symm.trans hmade')
  exact ⟨hlock, hempty⟩

/-! ## Insertion -/

theorem insert_of_full (h : s.Lockstep n) (hfull : s.size = s.capacity) :
    s.insert now requester periodic period wake = (.error .schedulerFull, s) := by
  rw [insert, if_pos (h.isExhausted_iff.2 hfull)]

theorem insert_parts_of_lt (h : s.Lockstep n) (hroom : s.size < s.capacity) (requester : Badge)
    (wake : NotificationId) :
    ∃ caps slot entries,
      s.caps.mint wake requester .write = .ok (⟨s.caps.next, s.caps.next_ne_null⟩, caps) ∧
        s.entries.allocate = .ok (slot, entries) := by
  obtain ⟨free, alloc, hpool⟩ := h.pool
  have hheld : s.caps.held.length < s.caps.capacity := by
    rw [h.matched.length_eq, ← h.size_eq, h.capacity]
    exact hroom
  obtain ⟨caps, hmint, -⟩ := s.caps.mint_of_lt wake requester .write hheld
  cases free with
  | nil =>
    have hlen := hpool.length_add
    rw [← hpool.length_toList, ← hpool.size_eq] at hlen
    simp only [List.length_nil, Nat.zero_add] at hlen
    exact absurd hlen (Nat.ne_of_lt hroom)
  | cons i free =>
    exact ⟨caps, _, _, hmint, Pool.allocate_of_head hpool.free_holds.head⟩

theorem insert_isOk_of_lt (h : s.Lockstep n) (hroom : s.size < s.capacity) (now : Tick)
    (requester : Badge) (periodic : Bool) (period : Tick) (wake : NotificationId) :
    ∃ id s', s.insert now requester periodic period wake = (.ok id, s') := by
  obtain ⟨caps, slot, entries, hmint, hallocate⟩ := insert_parts_of_lt h hroom requester wake
  have hnotfull : ¬ s.entries.isExhausted = true := fun hfull =>
    absurd (h.isExhausted_iff.1 hfull) (Nat.ne_of_lt hroom)
  rw [insert, if_neg hnotfull]
  simp only [hmint, hallocate]
  exact ⟨_, _, rfl⟩

theorem insert_of_lt (h : s.Lockstep n) (hn : n < maxGranted) (hroom : s.size < s.capacity)
    (now : Tick) (requester : Badge) (periodic : Bool) (period : Tick) (wake : NotificationId) :
    ∃ s', s.insert now requester periodic period wake = (.ok s.nextId, s') ∧
      s'.Lockstep (n + 1) ∧ s'.capacity = s.capacity ∧
      s'.pending = s.pending ++
        [{ id := s.nextId, requester, periodic, period, nextFire := now + period }] ∧
      s.nextId.cptr.toNat = n + 1 ∧
      s'.wakeOf s.nextId = some wake ∧ ∀ id ≠ s.nextId, s'.wakeOf id = s.wakeOf id := by
  obtain ⟨free, alloc, hpool⟩ := h.pool
  have hnext := h.next hn
  have hfresh : ∀ e ∈ s.pending, e.id.cptr ≠ s.caps.next := by
    intro e he heq
    have := h.named e he
    rw [heq] at this
    omega
  have hlen : s.pending.length < s.caps.capacity := by
    rw [← h.size_eq, h.capacity]
    exact hroom
  obtain ⟨caps, hmint, hmatched, hafter, hcapacity, hwake, hothers⟩ :=
    h.matched.mint (e := { id := s.nextId, requester, periodic, period, nextFire := now + period })
      wake hlen hfresh rfl
  have hnotfull : ¬ s.entries.isExhausted = true := fun hfull =>
    absurd (h.isExhausted_iff.1 hfull) (Nat.ne_of_lt hroom)
  cases free with
  | nil => exact absurd (hpool.free_holds.isEmpty_iff.2 rfl) hnotfull
  | cons i free =>
    have hallocate := Pool.allocate_of_head hpool.free_holds.head
    let entry : TimeoutEntry :=
      { id := s.nextId, requester, periodic, period, nextFire := now + period }
    let s' : Schedule := { entries := (s.entries.take i).modifyAt i fun _ => entry, caps }
    have hinsert : s.insert now requester periodic period wake = (.ok s.nextId, s') := by
      rw [insert, if_neg hnotfull]
      simp only [hmint, hallocate]
      rfl
    have hlist : s'.pending = s.pending ++ [entry] := by
      simp only [pending, s', hpool.toList_fill, List.map_append, List.map_cons, List.map_nil]
    have hcap : s'.capacity = s.capacity := by
      simp [s', Schedule.capacity]
    refine ⟨s', hinsert, ?_, hcap, hlist, hnext, hwake, ?_⟩
    · refine ⟨⟨_, _, hpool.take.modifyAt _⟩, h.equal, ?_, ?_, ?_, ?_⟩
      · rw [hlist]
        exact hmatched
      · rw [hcap, ← h.capacity]
        exact hcapacity
      · rw [hlist]
        intro e he
        rcases List.mem_append.1 he with he | he
        · exact Nat.le_succ_of_le (h.named e he)
        · obtain rfl := List.mem_singleton.1 he
          exact Nat.le_of_eq hnext
      · intro hlt
        show caps.next.toNat = n + 1 + 1
        rw [hafter, CapSpace.toNat_after, hnext]
        rw [hnext]
        exact hlt
    · intro id hid
      simp only [wakeOf]
      rw [hothers id.cptr fun heq => hid (TimeoutId.eq_of_cptr heq)]

/-! ## Cancellation -/

theorem Lockstep.find_eq (h : s.Lockstep n) (id : TimeoutId) :
    s.find id = (s.entries.toList.find? fun entry => entry.2.id == id).map (·.1) := by
  rw [find, Pool.find, Pool.findBy, h.equal]

theorem Lockstep.find_eq_none_iff (h : s.Lockstep n) :
    s.find id = none ↔ ∀ e ∈ s.pending, e.id ≠ id := by
  simp only [h.find_eq, Option.map_eq_none_iff, List.find?_eq_none, pending, List.mem_map,
    beq_iff_eq, forall_exists_index, and_imp, forall_apply_eq_imp_iff₂, ne_eq]

theorem cancel_of_notMem (h : s.Lockstep n) (hid : ∀ e ∈ s.pending, e.id ≠ id) :
    s.cancel id = (.error (.timeoutNotFound id), s) := by
  rw [cancel, h.find_eq_none_iff.2 hid]

theorem cancel_parts_of_find (h : s.Lockstep n) {slot : Handle} (hfind : s.find id = some slot) :
    ∃ entries cap caps front e back, s.entries.free slot = .ok entries ∧
      s.caps.revoke id.cptr = .ok (cap, caps) ∧ e.id = id ∧ s.pending = front ++ e :: back ∧
      Schedule.Lockstep n { entries, caps } ∧ Schedule.capacity { entries, caps } = s.capacity ∧
      Schedule.pending { entries, caps } = front ++ back ∧
      ∀ q ≠ id.cptr, caps.lookup q = s.caps.lookup q := by
  obtain ⟨free, alloc, hpool⟩ := h.pool
  rw [h.find_eq, Option.map_eq_some_iff] at hfind
  obtain ⟨entry, hfound, rfl⟩ := hfind
  have hmem := List.mem_of_find?_eq_some hfound
  obtain rfl : entry.2.id = id := by simpa using List.find?_some hfound
  obtain ⟨hlive, -, -⟩ := hpool.isLive_of_mem hmem
  obtain ⟨before, after, rfl, hsplit⟩ := hpool.split_of_mem hmem
  have hpending : s.pending = (before.filterMap s.entries.entryAt).map (·.2) ++
      entry.2 :: (after.filterMap s.entries.entryAt).map (·.2) := by
    rw [pending, hsplit, List.map_append, List.map_cons]
  obtain ⟨cap, caps, hrevoke, hmatched, hnext, hcapacity, hothers⟩ :=
    Matched.revoke (hpending ▸ h.matched)
  have hkept : (s.entries.release entry.1.index).toList.map (·.2) =
      (before.filterMap s.entries.entryAt).map (·.2) ++
        (after.filterMap s.entries.entryAt).map (·.2) := by
    rw [hpool.toList_release, List.map_append]
  have hcap : (s.entries.release entry.1.index).capacity = s.capacity := Pool.capacity_release
  refine ⟨s.entries.release entry.1.index, cap, caps, _, entry.2, _, ?_, hrevoke, rfl, hpending,
    ⟨⟨_, _, hpool.release⟩, h.equal, ?_, ?_, ?_, ?_⟩, hcap, hkept, hothers⟩
  · rw [Pool.free, if_pos hlive]
  · rw [pending, hkept]
    exact hmatched
  · exact (hcapacity.trans h.capacity).trans hcap.symm
  · rw [pending, hkept]
    intro e he
    refine h.named e ?_
    rw [hpending]
    rcases List.mem_append.1 he with he | he
    · exact List.mem_append_left _ he
    · exact List.mem_append_right _ (List.mem_cons_of_mem _ he)
  · intro hn
    exact hnext ▸ h.next hn

theorem cancel_of_mem (h : s.Lockstep n) (hid : ∃ e ∈ s.pending, e.id = id) :
    ∃ s', s.cancel id = (.ok (), s') ∧ s'.Lockstep n ∧ s'.capacity = s.capacity ∧
      s'.pending = s.pending.filter (fun e => e.id != id) ∧
      ∀ id' ≠ id, s'.wakeOf id' = s.wakeOf id' := by
  cases hfind : s.find id with
  | none =>
    obtain ⟨e, he, heq⟩ := hid
    exact absurd heq (h.find_eq_none_iff.1 hfind e he)
  | some slot =>
    obtain ⟨entries, cap, caps, front, e, back, hfree, hrevoke, rfl, hsplit, hlock, hcapacity, hkept,
      hothers⟩ := cancel_parts_of_find h hfind
    refine ⟨{ entries, caps }, ?_, hlock, hcapacity, ?_, ?_⟩
    · rw [cancel]
      simp only [hfind, hfree, hrevoke]
    · have hrest := (hsplit ▸ h.matched).ne_of_mem_rest
      have hne : ∀ e' ∈ front ++ back, (e'.id != e.id) = true := fun e' he' => by
        simpa using fun heq : e'.id = e.id => hrest e' he' (congrArg TimeoutId.cptr heq)
      rw [hkept, hsplit, List.filter_append, List.filter_cons_of_neg (by simp),
        ← List.filter_append, List.filter_eq_self.2 hne]
    · intro id' hne
      simp only [wakeOf]
      rw [hothers id'.cptr fun heq => hne (TimeoutId.eq_of_cptr heq)]

/-! ## Firing -/

/-- What visiting timeouts does to a firing, given the timeouts that were kept before them: the due
ones signal their notifications and leave or are re-armed. -/
structure Visited (now : Tick) (before : List TimeoutEntry) (f : Firing) (entries : List TimeoutEntry)
    (f' : Firing) (kept : List TimeoutEntry) : Prop where
  kept_eq : kept = entries.filterMap (TimeoutEntry.afterFire now)
  matched : Matched f'.caps (before ++ kept)
  next : f'.caps.next = f.caps.next
  capacity : f'.caps.capacity = f.caps.capacity
  fired : f'.fired = f.fired + (entries.filter (·.isDue now)).length
  wakes : f'.wakes = f.caps.signalEach now (entries.filter (·.isDue now)) f.wakes
  lookup : ∀ e ∈ before ++ kept, f'.caps.lookup e.id.cptr = f.caps.lookup e.id.cptr

theorem deliver_of_matched {f : Firing} {entries : List TimeoutEntry} {e : TimeoutEntry}
    (h : Matched f.caps entries) (he : e ∈ entries) :
    f.deliver e.id now = { f with wakes := f.caps.signalEach now [e] f.wakes } := by
  obtain ⟨cap, hlookup, hwith⟩ := h.lookupWith_of_mem he
  simp [Firing.deliver, hwith, CapSpace.signalEach, hlookup]

theorem signalEach_cons (caps : CapSpace NotificationId) (e : TimeoutEntry)
    (entries : List TimeoutEntry) :
    caps.signalEach now (e :: entries) wakes =
      caps.signalEach now entries (caps.signalEach now [e] wakes) := rfl

theorem signalEach_congr {caps caps' : CapSpace NotificationId} {entries : List TimeoutEntry}
    (h : ∀ e ∈ entries, caps'.lookup e.id.cptr = caps.lookup e.id.cptr) (wakes : Wakes) :
    caps'.signalEach now entries wakes = caps.signalEach now entries wakes := by
  induction entries generalizing wakes with
  | nil => rfl
  | cons e entries ih =>
    have hhead : caps'.signalEach now [e] wakes = caps.signalEach now [e] wakes := by
      simp only [CapSpace.signalEach, List.foldl_cons, List.foldl_nil, h e List.mem_cons_self]
    rw [signalEach_cons, signalEach_cons caps, hhead]
    exact ih (fun e' he' => h e' (List.mem_cons_of_mem _ he')) _

/-- The three things a visit can do; it never lacks a capability. -/
theorem fireEntry_cases {before after : List TimeoutEntry} {f : Firing} {e : TimeoutEntry}
    (h : Matched f.caps (before ++ e :: after)) (now : Tick) (slot : Handle) :
    (e.isDue now = false ∧ fireEntry now f slot e = (f, e, .keep)) ∨
    (e.isDue now = true ∧ e.periodic = true ∧ fireEntry now f slot e =
      ({ f with fired := f.fired + 1, wakes := f.caps.signalEach now [e] f.wakes },
        e.rearm now, .keep)) ∨
    (e.isDue now = true ∧ e.periodic = false ∧ ∃ cap caps,
      f.caps.revoke e.id.cptr = .ok (cap, caps) ∧ fireEntry now f slot e =
        ({ fired := f.fired + 1, wakes := f.caps.signalEach now [e] f.wakes, caps }, e, .release) ∧
      Matched caps (before ++ after) ∧ caps.next = f.caps.next ∧
      caps.capacity = f.caps.capacity ∧
      ∀ q ≠ e.id.cptr, caps.lookup q = f.caps.lookup q) := by
  have hmem : e ∈ before ++ e :: after := by simp
  cases hdue : e.isDue now with
  | false =>
    refine Or.inl ⟨rfl, ?_⟩
    rw [fireEntry, if_neg (by simpa [TimeoutEntry.isDue] using hdue)]
  | true =>
    have hcond : tickReached now e.nextFire = true := hdue
    right
    cases hperiodic : e.periodic with
    | true =>
      refine Or.inl ⟨rfl, rfl, ?_⟩
      rw [fireEntry, if_pos hcond, if_pos hperiodic, deliver_of_matched h hmem]
    | false =>
      obtain ⟨cap, caps, hrevoke, hmatched, hnext, hcapacity, hothers⟩ := h.revoke
      refine Or.inr ⟨rfl, rfl, cap, caps, hrevoke, ?_, hmatched, hnext, hcapacity, hothers⟩
      rw [fireEntry, if_pos hcond, if_neg (by simp [hperiodic]), deliver_of_matched h hmem]
      simp only [Firing.revoke, hrevoke]

theorem visitList_fireEntry (now : Tick) (rest : List (Handle × TimeoutEntry))
    (before : List TimeoutEntry) (f : Firing) (h : Matched f.caps (before ++ rest.map (·.2))) :
    Visited now before f (rest.map (·.2)) (Pool.visitList (fireEntry now) f rest).1
      ((Pool.visitList (fireEntry now) f rest).2.map (·.2)) := by
  induction rest generalizing before f with
  | nil => exact ⟨rfl, h, rfl, rfl, rfl, rfl, fun e he => rfl⟩
  | cons entry rest ih =>
    obtain ⟨slot, e⟩ := entry
    simp only [List.map_cons] at h ⊢
    rcases fireEntry_cases h now slot with ⟨hdue, hvisit⟩ | ⟨hdue, hperiodic, hvisit⟩ |
      ⟨hdue, hperiodic, cap, caps, -, hvisit, hmatched, hnext, hcapacity, hothers⟩
    · have hrest := ih (before ++ [e]) f (by simpa using h)
      simp only [Pool.visitList, hvisit, List.map_cons]
      refine ⟨?_, ?_, hrest.next, hrest.capacity, ?_, ?_, ?_⟩
      · rw [hrest.kept_eq, List.filterMap_cons, TimeoutEntry.afterFire, hdue]
        rfl
      · simpa using hrest.matched
      · rw [hrest.fired, List.filter_cons_of_neg (by simp [hdue])]
      · rw [hrest.wakes, List.filter_cons_of_neg (by simp [hdue])]
      · simpa using hrest.lookup
    · have hrest := ih (before ++ [e.rearm now])
        { f with fired := f.fired + 1, wakes := f.caps.signalEach now [e] f.wakes }
        (h.congr (by simp [TimeoutEntry.rearm]))
      simp only [Pool.visitList, hvisit, List.map_cons]
      refine ⟨?_, ?_, hrest.next, hrest.capacity, ?_, ?_, ?_⟩
      · rw [hrest.kept_eq, List.filterMap_cons, TimeoutEntry.afterFire, hdue, hperiodic]
        rfl
      · simpa using hrest.matched
      · rw [hrest.fired, List.filter_cons_of_pos (by simp [hdue]), List.length_cons]
        show f.fired + 1 + _ = _
        omega
      · rw [hrest.wakes, List.filter_cons_of_pos (by simp [hdue])]
        exact (signalEach_cons ..).symm
      · simpa using hrest.lookup
    · have hrest := ih before
        { fired := f.fired + 1, wakes := f.caps.signalEach now [e] f.wakes, caps } hmatched
      -- the names of the others differ from the one that is gone, so their capabilities stay
      have hne := h.ne_of_mem_rest
      simp only [Pool.visitList, hvisit]
      refine ⟨?_, hrest.matched, hrest.next.trans hnext, hrest.capacity.trans hcapacity, ?_, ?_, ?_⟩
      · rw [hrest.kept_eq, List.filterMap_cons, TimeoutEntry.afterFire, hdue, hperiodic]
        rfl
      · rw [hrest.fired, List.filter_cons_of_pos (by simp [hdue]), List.length_cons]
        show f.fired + 1 + _ = _
        omega
      · rw [hrest.wakes, List.filter_cons_of_pos (by simp [hdue]), signalEach_cons]
        refine signalEach_congr (fun e' he' => hothers _ (hne e' ?_)) _
        exact List.mem_append_right _ (List.mem_of_mem_filter he')
      · intro e' he'
        refine (hrest.lookup e' he').trans (hothers _ ?_)
        rcases List.mem_append.1 he' with he' | he'
        · exact hne e' (List.mem_append_left _ he')
        · rw [hrest.kept_eq, List.mem_filterMap] at he'
          obtain ⟨e₀, he₀, hafter⟩ := he'
          rw [(TimeoutEntry.id_of_afterFire hafter).1]
          exact hne e₀ (List.mem_append_right _ he₀)

theorem fire_spec (h : s.Lockstep n) (wakes : Wakes) (now : Tick) :
    ∃ s', s.fire wakes now =
        ((s.due now).length, s', s.caps.signalEach now (s.due now) wakes) ∧
      s'.Lockstep n ∧ s'.capacity = s.capacity ∧
      s'.pending = s.pending.filterMap (TimeoutEntry.afterFire now) ∧
      ∀ e ∈ s'.pending, s'.wakeOf e.id = s.wakeOf e.id := by
  obtain ⟨free, alloc, hpool⟩ := h.pool
  let f₀ : Firing := { fired := 0, caps := s.caps, wakes }
  have hswept := Pool.sweep_spec (fireEntry now) f₀ hpool
  have hvisited := visitList_fireEntry now s.entries.toList [] f₀ h.matched
  generalize hanswer : s.entries.sweep f₀ (fireEntry now) = answer at hswept
  obtain ⟨f', released, entries⟩ := answer
  obtain rfl : f' = _ := hswept.state
  have hkept : entries.toList = (Pool.visitList (fireEntry now) f₀ s.entries.toList).2 :=
    hswept.toList
  generalize Pool.visitList (fireEntry now) f₀ s.entries.toList = visited at *
  obtain ⟨f', kept⟩ := visited
  let s' : Schedule := { entries, caps := f'.caps }
  have hpending : s'.pending = kept.map (·.2) := by
    show entries.toList.map (·.2) = _
    rw [hkept]
  have hfired : f'.fired = (s.due now).length := hvisited.fired.trans (Nat.zero_add _)
  have hwakes : f'.wakes = s.caps.signalEach now (s.due now) wakes := hvisited.wakes
  have hcapacity : s'.capacity = s.capacity := hswept.capacity
  refine ⟨s', ?_, ⟨hswept.sound, hswept.equal.trans h.equal, ?_, ?_, ?_, ?_⟩, hcapacity, ?_, ?_⟩
  · rw [fire, hanswer, ← hfired, ← hwakes]
  · rw [hpending]
    exact hvisited.matched
  · exact (hvisited.capacity.trans h.capacity).trans hcapacity.symm
  · intro e he
    rw [hpending, hvisited.kept_eq, List.mem_filterMap] at he
    obtain ⟨e₀, he₀, hafter⟩ := he
    rw [(TimeoutEntry.id_of_afterFire hafter).1]
    exact h.named e₀ he₀
  · intro hn
    exact hvisited.next ▸ h.next hn
  · rw [hpending, hvisited.kept_eq]
    rfl
  · intro e he
    rw [hpending] at he
    rw [wakeOf, wakeOf]
    exact congrArg _ (hvisited.lookup e he)

/-- The timeouts that a fire delivers, in order, and the notifications that they signal. -/
def deliveries (s : Schedule) (now : Tick) : List (TimeoutId × NotificationId) :=
  (s.due now).filterMap fun e => (s.wakeOf e.id).map fun k => (e.id, k)

theorem mem_deliveries {k : NotificationId} : (id, k) ∈ s.deliveries now ↔
    ∃ e ∈ s.pending, e.isDue now = true ∧ e.id = id ∧ s.wakeOf id = some k := by
  simp only [deliveries, due, List.mem_filterMap, List.mem_filter, Option.map_eq_some_iff,
    Prod.mk.injEq]
  constructor
  · rintro ⟨e, ⟨he, hdue⟩, k', hwake, rfl, rfl⟩
    exact ⟨e, he, hdue, rfl, hwake⟩
  · rintro ⟨e, he, hdue, rfl, hwake⟩
    exact ⟨e, ⟨he, hdue⟩, k, hwake, rfl, rfl⟩

theorem map_fst_deliveries : ((s.deliveries now).map (·.1)).Sublist ((s.due now).map (·.id)) := by
  rw [deliveries]
  generalize s.due now = entries
  induction entries with
  | nil => exact .slnil
  | cons e entries ih =>
    rw [List.filterMap_cons, List.map_cons]
    cases s.wakeOf e.id with
    | none => exact ih.cons e.id
    | some k => exact ih.cons_cons e.id

/-- A fire is its deliveries, one after the other. -/
theorem signalEach_due (s : Schedule) (now : Tick) (wakes : Wakes) :
    s.caps.signalEach now (s.due now) wakes =
      (s.deliveries now).foldl (fun wakes d => (wakes.signal d.2 (.timeout now)).2) wakes := by
  rw [deliveries]
  generalize s.due now = entries
  induction entries generalizing wakes with
  | nil => rfl
  | cons e entries ih =>
    rw [signalEach_cons, ih]
    cases hlookup : s.caps.lookup e.id.cptr with
    | none => simp [CapSpace.signalEach, wakeOf, hlookup]
    | some cap => simp [CapSpace.signalEach, wakeOf, hlookup]

/-! ### Watching a fire -/

/-- What a sweep that fires notes down along the way. -/
def fireNotes {β : Type} (s : Schedule) (note : Firing → Firing → TimeoutEntry → List β)
    (wakes : Wakes) (now : Tick) : List β :=
  (s.entries.sweep ({ fired := 0, caps := s.caps, wakes }, [])
    (Pool.watch (fireEntry now) note)).1.2

theorem visitList_watch_fireEntry {β : Type} {note : Firing → Firing → TimeoutEntry → List β}
    {noted : TimeoutEntry → List β} (caps : CapSpace NotificationId)
    (hnote : ∀ before e after f slot, Matched f.caps (before ++ e :: after) →
      f.caps.lookup e.id.cptr = caps.lookup e.id.cptr →
        note f (fireEntry now f slot e).1 e = noted e)
    (rest : List (Handle × TimeoutEntry)) (before : List TimeoutEntry) (f : Firing)
    (notes : List β) (h : Matched f.caps (before ++ rest.map (·.2)))
    (hcaps : ∀ e ∈ rest.map (·.2), f.caps.lookup e.id.cptr = caps.lookup e.id.cptr) :
    (Pool.visitList (Pool.watch (fireEntry now) note) (f, notes) rest).1.2 =
      notes ++ (rest.map (·.2)).flatMap noted := by
  induction rest generalizing before f notes with
  | nil => exact (List.append_nil _).symm
  | cons entry rest ih =>
    obtain ⟨slot, e⟩ := entry
    simp only [List.map_cons] at h hcaps
    have hhead := hnote before e _ f slot h (hcaps e List.mem_cons_self)
    have htail := fun e' he' => hcaps e' (List.mem_cons_of_mem _ he')
    simp only [Pool.visitList, Pool.watch, hhead, List.map_cons, List.flatMap_cons]
    rw [← List.append_assoc]
    rcases fireEntry_cases h now slot with ⟨-, hvisit⟩ | ⟨-, -, hvisit⟩ |
      ⟨-, -, cap, caps', -, hvisit, hmatched, -, -, hothers⟩
    · rw [hvisit]
      exact ih (before ++ [e]) f _ (by simpa using h) htail
    · rw [hvisit]
      exact ih (before ++ [e.rearm now]) _ _ (h.congr (by simp [TimeoutEntry.rearm])) htail
    · rw [hvisit]
      refine ih before _ _ hmatched fun e' he' => ?_
      exact (hothers _ (h.ne_of_mem_rest e' (List.mem_append_right _ he'))).trans (htail e' he')

theorem fireNotes_eq {β : Type} {note : Firing → Firing → TimeoutEntry → List β}
    (noted : TimeoutEntry → List β) (h : s.Lockstep n)
    (hnote : ∀ before e after f slot, Matched f.caps (before ++ e :: after) →
      f.caps.lookup e.id.cptr = s.caps.lookup e.id.cptr →
        note f (fireEntry now f slot e).1 e = noted e) :
    s.fireNotes note wakes now = s.pending.flatMap noted := by
  obtain ⟨free, alloc, hpool⟩ := h.pool
  rw [fireNotes, (Pool.sweep_spec _ _ hpool).state]
  exact visitList_watch_fireEntry s.caps hnote s.entries.toList [] _ [] h.matched fun _ _ => rfl

/-- The due timeouts for which a fire lacks the capability to signal or to take back. -/
def missed (s : Schedule) (wakes : Wakes) (now : Tick) : List TimeoutId :=
  s.fireNotes (fun f _ e =>
    if e.isDue now && !((f.caps.lookupWith e.id.cptr .write).isOk &&
      (e.periodic || (f.caps.revoke e.id.cptr).isOk)) then [e.id] else []) wakes now

theorem missed_eq_nil (h : s.Lockstep n) (wakes : Wakes) (now : Tick) : s.missed wakes now = [] := by
  rw [missed, fireNotes_eq (fun _ => []) h, List.flatMap_eq_nil_iff]
  · exact fun _ _ => rfl
  · intro before e after f slot hmatched _
    obtain ⟨cap, -, hwith⟩ := hmatched.lookupWith_of_mem (e := e) (by simp)
    obtain ⟨cap', caps, hrevoke, -⟩ := hmatched.revoke
    simp [hwith, hrevoke, Except.isOk, Except.toBool]

def firedIds (s : Schedule) (wakes : Wakes) (now : Tick) : List TimeoutId :=
  s.fireNotes (fun f f' e => if f.fired < f'.fired then [e.id] else []) wakes now

theorem firedIds_eq (h : s.Lockstep n) (wakes : Wakes) (now : Tick) :
    s.firedIds wakes now = (s.due now).map (·.id) := by
  rw [firedIds, fireNotes_eq (fun e => if e.isDue now then [e.id] else []) h]
  · rw [due]
    induction s.pending with
    | nil => rfl
    | cons e entries ih =>
      rw [List.flatMap_cons, ih]
      cases hdue : e.isDue now <;> simp [hdue]
  · intro before e after f slot hmatched _
    rcases fireEntry_cases hmatched now slot with ⟨hdue, hvisit⟩ | ⟨hdue, -, hvisit⟩ |
      ⟨hdue, -, cap, caps, -, hvisit, -⟩
    · simp [hvisit, hdue]
    · simp [hvisit, hdue]
    · simp [hvisit, hdue]

end Schedule

end Osal
