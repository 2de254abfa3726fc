import Osal.Proofs.Clock.Schedule

/-!
# The two tables of a schedule stay in lockstep

A run performs operations on a schedule in any order and with any arguments. `tables_agree`: as long
as names last, in every state that a run reaches the pool and the capability space hold the same
timeouts. An operation is refused exactly where it should be and changes nothing then, and none of its
steps fails after another step has changed a table.
-/

namespace Osal

namespace Schedule

/-! ## Runs -/

/-- An operation on a schedule. A fire finds the notifications as others left them. -/
inductive Op where
  | insert (now : Tick) (requester : Badge) (periodic : Bool) (period : Tick)
      (wake : NotificationId)
  | cancel (id : TimeoutId)
  | fire (wakes : Wakes) (now : Tick)

/-- What an operation answers, given what names a timeout. -/
inductive Answer (ι : Type) where
  | inserted (result : Except Error ι)
  | cancelled (result : Except Error Unit)
  | fired (count : Nat) (wakes : Wakes)

def Answer.isGrant {ι : Type} : Answer ι → Bool
  | .inserted (.ok _) => true
  | _ => false

def perform (s : Schedule) : Op → Answer TimeoutId × Schedule
  | .insert now requester periodic period wake =>
    let (result, s) := s.insert now requester periodic period wake
    (.inserted result, s)
  | .cancel id =>
    let (result, s) := s.cancel id
    (.cancelled result, s)
  | .fire wakes now =>
    let (count, s, wakes) := s.fire wakes now
    (.fired count wakes, s)

/-- The answers to a list of operations, and the schedule after them. -/
def run (s : Schedule) : List Op → List (Answer TimeoutId) × Schedule
  | [] => ([], s)
  | op :: ops =>
    let (answer, s) := s.perform op
    let (answers, s) := s.run ops
    (answer :: answers, s)

/-- How many timeouts were granted. -/
def grants {ι : Type} (answers : List (Answer ι)) : Nat := answers.countP Answer.isGrant

variable {s : Schedule} {n capacity : Nat}

@[simp] theorem grants_append {ι : Type} (answers answers' : List (Answer ι)) :
    grants (answers ++ answers') = grants answers + grants answers' :=
  List.countP_append

theorem grants_cons {ι : Type} (answer : Answer ι) (answers : List (Answer ι)) :
    grants (answer :: answers) = grants [answer] + grants answers :=
  grants_append [answer] answers

theorem grants_le_length {ι : Type} (answers : List (Answer ι)) : grants answers ≤ answers.length :=
  List.countP_le_length

theorem run_append (s : Schedule) (ops ops' : List Op) :
    s.run (ops ++ ops') =
      ((s.run ops).1 ++ ((s.run ops).2.run ops').1, ((s.run ops).2.run ops').2) := by
  induction ops generalizing s with
  | nil => rfl
  | cons op ops ih => simp only [List.cons_append, run, ih]

@[simp] theorem length_run (s : Schedule) (ops : List Op) : (s.run ops).1.length = ops.length := by
  induction ops generalizing s with
  | nil => rfl
  | cons op ops ih => exact congrArg (· + 1) (ih _)

theorem perform_lockstep (h : s.Lockstep n) (op : Op)
    (hn : n + grants [(s.perform op).1] ≤ maxGranted) :
    (s.perform op).2.Lockstep (n + grants [(s.perform op).1]) ∧
      (s.perform op).2.capacity = s.capacity := by
  cases op with
  | insert now requester periodic period wake =>
    rcases Nat.lt_or_eq_of_le h.size_le with hroom | hfull
    · obtain ⟨id, s', hok⟩ := insert_isOk_of_lt h hroom now requester periodic period wake
      simp only [perform, hok] at hn ⊢
      obtain ⟨s'', hinsert, hlock, hcapacity, -⟩ :=
        insert_of_lt h hn hroom now requester periodic period wake
      obtain ⟨-, rfl⟩ := Prod.mk.inj (hok.symm.trans hinsert)
      exact ⟨hlock, hcapacity⟩
    · simp only [perform, insert_of_full h hfull]
      exact ⟨h, trivial⟩
  | cancel id =>
    by_cases hid : ∃ e ∈ s.pending, e.id = id
    · obtain ⟨s', hcancel, hlock, hcapacity, -⟩ := cancel_of_mem h hid
      simp only [perform, hcancel]
      exact ⟨hlock, hcapacity⟩
    · have habsent : ∀ e ∈ s.pending, e.id ≠ id := fun e he heq => hid ⟨e, he, heq⟩
      simp only [perform, cancel_of_notMem h habsent]
      exact ⟨h, trivial⟩
  | fire wakes now =>
    obtain ⟨s', hfire, hlock, hcapacity, -⟩ := fire_spec h wakes now
    simp only [perform, hfire]
    exact ⟨hlock, hcapacity⟩

theorem run_lockstep (h : s.Lockstep n) (ops : List Op)
    (hn : n + grants (s.run ops).1 ≤ maxGranted) :
    (s.run ops).2.Lockstep (n + grants (s.run ops).1) ∧ (s.run ops).2.capacity = s.capacity := by
  induction ops generalizing s n with
  | nil => exact ⟨h, rfl⟩
  | cons op ops ih =>
    simp only [run] at hn ⊢
    rw [grants_cons, ← Nat.add_assoc] at hn ⊢
    obtain ⟨hlock, hcapacity⟩ := perform_lockstep h op (by omega)
    obtain ⟨hrest, hcapacity'⟩ := ih hlock hn
    exact ⟨hrest, hcapacity'.trans hcapacity⟩

theorem lockstep_of_run (hmade : ofCapacity capacity = .ok s) (ops : List Op)
    (hn : grants (s.run ops).1 ≤ maxGranted) :
    (s.run ops).2.Lockstep (grants (s.run ops).1) := by
  have hrun := (run_lockstep (lockstep_of_ofCapacity hmade).1 ops (by omega)).1
  rwa [Nat.zero_add] at hrun

/-! ## What lockstep means -/

/-- The tables of a schedule hold the same timeouts, and every operation treats both alike. -/
structure TablesAgree (capacity : Nat) (s : Schedule) : Prop where
  ids_nodup : (s.pending.map (·.id)).Nodup
  pointers_nodup : s.caps.pointers.Nodup
  /-- The names of the pending timeouts are the pointers held. -/
  pointers_iff : ∀ p, p ∈ s.caps.pointers ↔ ∃ e ∈ s.pending, e.id.cptr = p
  held : ∀ e ∈ s.pending, ∃ cap, s.caps.lookup e.id.cptr = some cap ∧
    cap.badge = e.requester ∧ cap.rights = .write
  size_eq : s.size = s.caps.size ∧ s.size = s.pending.length
  isExhausted_iff : s.entries.isExhausted = true ↔ s.size = capacity
  /-- A full schedule refuses an insertion, and nothing else does. -/
  insert_full_iff : ∀ now requester periodic period wake,
    (s.insert now requester periodic period wake).1 = .error .schedulerFull ↔ s.size = capacity
  insert_full : s.size = capacity → ∀ now requester periodic period wake,
    s.insert now requester periodic period wake = (.error .schedulerFull, s)
  /-- With room, both halves of an insertion succeed. -/
  insert_room : s.size ≠ capacity → ∀ now requester periodic period wake,
    (s.caps.mint wake requester .write).isOk ∧ s.entries.allocate.isOk ∧
      (s.insert now requester periodic period wake).1.isOk
  /-- A cancellation is refused if the timeout is not pending, and else succeeds. -/
  cancel_absent_iff : ∀ id,
    (s.cancel id).1 = .error (.timeoutNotFound id) ↔ ∀ e ∈ s.pending, e.id ≠ id
  cancel_absent : ∀ id, (∀ e ∈ s.pending, e.id ≠ id) →
    s.cancel id = (.error (.timeoutNotFound id), s)
  cancel_present : ∀ id, (∃ e ∈ s.pending, e.id = id) → (s.cancel id).1 = .ok ()
  /-- Both halves of a cancellation succeed. -/
  cancel_found : ∀ id slot, s.find id = some slot →
    (s.entries.free slot).isOk ∧ (s.caps.revoke id.cptr).isOk
  /-- A fire finds every capability that it looks up or takes back. -/
  missed_eq_nil : ∀ wakes now, s.missed wakes now = []

theorem Lockstep.tablesAgree (h : s.Lockstep n) : s.TablesAgree s.capacity := by
  have habsent : ∀ id, (s.cancel id).1 = .error (.timeoutNotFound id) →
      ∀ e ∈ s.pending, e.id ≠ id := by
    intro id hrefused e he heq
    obtain ⟨s', hcancel, -⟩ := cancel_of_mem h ⟨e, he, heq⟩
    rw [hcancel] at hrefused
    cases hrefused
  refine
    { ids_nodup := h.ids_nodup
      pointers_nodup := h.matched.sound.nodup
      pointers_iff := fun p => h.matched.mem_pointers_iff
      held := fun e he => h.matched.lookup_of_mem he
      size_eq := ⟨h.size_eq.trans h.matched.size_eq.symm, h.size_eq⟩
      isExhausted_iff := h.isExhausted_iff
      insert_full_iff := ?_
      insert_full := fun hfull _ _ _ _ _ => insert_of_full h hfull
      insert_room := ?_
      cancel_absent_iff := fun id => ⟨habsent id, fun hid => by rw [cancel_of_notMem h hid]⟩
      cancel_absent := fun id hid => cancel_of_notMem h hid
      cancel_present := ?_
      cancel_found := ?_
      missed_eq_nil := missed_eq_nil h }
  · intro now requester periodic period wake
    constructor
    · intro hrefused
      by_contra hne
      obtain ⟨id, s', hok⟩ := insert_isOk_of_lt h (Nat.lt_of_le_of_ne h.size_le hne)
        now requester periodic period wake
      rw [hok] at hrefused
      cases hrefused
    · intro hfull
      rw [insert_of_full h hfull]
  · intro hne now requester periodic period wake
    have hroom := Nat.lt_of_le_of_ne h.size_le hne
    obtain ⟨caps, slot, entries, hmint, hallocate⟩ := insert_parts_of_lt h hroom requester wake
    obtain ⟨id, s', hok⟩ := insert_isOk_of_lt h hroom now requester periodic period wake
    rw [hmint, hallocate, hok]
    exact ⟨rfl, rfl, rfl⟩
  · intro id hid
    obtain ⟨s', hcancel, -⟩ := cancel_of_mem h hid
    rw [hcancel]
  · intro id slot hfind
    obtain ⟨entries, cap, caps, -, -, -, hfree, hrevoke, -⟩ := cancel_parts_of_find h hfind
    rw [hfree, hrevoke]
    exact ⟨rfl, rfl⟩

/-- However a schedule is used, its tables agree as long as names last. -/
theorem tables_agree (capacity : Nat) (hcap : 0 < capacity) :
    ∃ s₀, ofCapacity capacity = .ok s₀ ∧
      ∀ ops, grants (s₀.run ops).1 ≤ maxGranted → TablesAgree capacity (s₀.run ops).2 := by
  obtain ⟨s₀, hmade, hlock, rfl, -⟩ := ofCapacity_spec hcap
  refine ⟨s₀, hmade, fun ops hn => ?_⟩
  obtain ⟨hrun, hcapacity⟩ := run_lockstep hlock ops (by omega)
  exact hcapacity ▸ hrun.tablesAgree

/-- A one-shot fires next to a periodic timeout, and the slot it leaves is used again. -/
theorem tables_agree_refill :
    0 < 2 ∧ ∃ s₀, ofCapacity 2 = .ok s₀ ∧ TablesAgree 2
      (s₀.run [.insert 0 7 true 10 3, .insert 4 8 false 6 5, .fire ⟨#[]⟩ 12,
        .insert 12 9 false 1 1]).2 := by
  obtain ⟨s₀, hmade, hagree⟩ := tables_agree 2 (by decide)
  refine ⟨by decide, s₀, hmade, hagree _ (Nat.le_trans (grants_le_length _) ?_)⟩
  rw [length_run]
  decide

end Schedule

end Osal
