import Osal.Guarded
import Osal.Proofs.Histories
import Osal.Proofs.Mutex.Places

/-!
# The loan of a guarded value

Borrowers are a guarded value and any number of threads that lock it, change it through their guards and
drop them, one access to shared memory at a time and in any order. A thread may try to lock the value
again while it has a guard; and a change reads the value in one step and stores what it makes of it in
another, so that nothing is said beforehand about who may come in between.

`loan_exclusive`: only the owner of the mutex looks at the flag of the loan or changes it. An attempt to
lock is refused just if the thread has a guard, and leaves everything as it found it. A guard that is
dropped leaves the mutex free, with the loan over, and no change of the value is lost.
-/

namespace Osal

/-- What the history of a guarded value tells. -/
inductive LoanDeed (α : Type) where
  /-- The thread took the token of the mutex. -/
  | acquired (thread : Tid)
  /-- The thread looked at the flag or changed it, while the mutex had an owner or none. -/
  | touched (thread : Tid) (owner : Option Tid)
  | wrote (thread : Tid) (change : α → α)
  /-- An attempt to lock ended; `had` says whether the thread had a guard. -/
  | locked (thread : Tid) (outcome : Guarded.Outcome) (had : Bool) (before left : Guarded α)
  | released (thread : Tid) (left : Guarded α)

namespace LoanDeed

def lastAcquirer {α : Type} : List (LoanDeed α) → Option Tid
  | [] => none
  | .acquired t :: _ => some t
  | _ :: past => lastAcquirer past

def applied {α : Type} (initial : α) : List (LoanDeed α) → α
  | [] => initial
  | .wrote _ change :: past => change (applied initial past)
  | _ :: past => applied initial past

/-- What is to be said of a deed. -/
def Law {α : Type} (past : List (LoanDeed α)) : LoanDeed α → Prop
  | .acquired _ => True
  | .touched t owner => owner = some t
  | .wrote t _ => lastAcquirer past = some t
  | .locked _ outcome had before left =>
    outcome = (if had then .alreadyBorrowed else .guarded) ∧ (had = true → left = before)
  | .released _ left =>
    left.lent = false ∧ left.mutex.owner = none ∧ left.mutex.held = 0 ∧
      left.mutex.token.isPending = true

end LoanDeed

/-- A guarded value and the threads that borrow it. -/
structure Borrowers (α : Type) where
  guarded : Guarded α
  /-- Where a thread stands inside of a call, and the guarded value when the call began. -/
  calls : Tid → Option (Guarded.Point × Guarded α) := fun _ => none
  /-- Whether a thread has a guard whose loan is not over. -/
  guards : Tid → Bool := fun _ => false
  /-- What a thread read of the value in order to change it. -/
  copies : Tid → Option α := fun _ => none
  history : List (LoanDeed α) := []

namespace Guarded

variable {α : Type}

/-- Whether a step from a point looks at the flag or changes it. -/
def Point.touchesLoan : Point → Bool
  | .borrow | .endLoan => true
  | .locking _ | .unwinding _ | .unlocking _ => false

/-- Where a thread stands in the code of the mutex. -/
def mutexPlace : Option Point → Option Mutex.Point
  | some (.locking p) | some (.unwinding p) | some (.unlocking p) => some p
  | none | some .borrow | some .endLoan => none

/-- The levels of the mutex that a thread holds besides the one of its guard. -/
def extraDepth : Option Point → Nat
  | some .borrow | some (.unwinding _) | some (.unlocking _) => 1
  | none | some (.locking _) | some .endLoan => 0

def place : Next Point Outcome → Option Point
  | .goto p => some p
  | .done _ => none

end Guarded

namespace Borrowers

variable {α : Type}

/-- What can happen to a guarded value. An event that is impossible at its moment changes nothing. -/
inductive Event (α : Type) where
  /-- The thread tries to lock the value, whether or not it has a guard. -/
  | lock (thread : Tid)
  /-- The thread reads the value through its guard. -/
  | load (thread : Tid)
  /-- The thread stores what it makes of the value that it read. -/
  | store (thread : Tid) (change : α → α)
  | drop (thread : Tid)
  /-- A panic of the thread drops its guard. -/
  | raise (thread : Tid)
  /-- The thread takes a step of the call that it is inside of, unless it is blocked. -/
  | step (thread : Tid)

def start (initial : α) : Borrowers α := { guarded := { value := initial } }

def point? (c : Borrowers α) (t : Tid) : Option Guarded.Point := (c.calls t).map (·.1)

def depth (c : Borrowers α) (t : Tid) : Nat :=
  (if c.guards t then 1 else 0) + Guarded.extraDepth (c.point? t)

def guardAfter (had : Bool) : Guarded.Point → Next Guarded.Point Guarded.Outcome → Bool
  | .endLoan, _ => false
  | _, .done .guarded => true
  | _, _ => had

/-- What a step from a point tells of the token and of the flag. -/
def accessNews (t : Tid) (g : Guarded α) : Guarded.Point → List (LoanDeed α)
  | .locking .lockAwait => [.acquired t]
  | p => if p.touchesLoan then [.touched t g.mutex.owner] else []

def endNews (t : Tid) (had : Bool) (before left : Guarded α) :
    Next Guarded.Point Guarded.Outcome → List (LoanDeed α)
  | .goto _ => []
  | .done .released => [.released t left]
  | .done outcome => [.locked t outcome had before left]

/-- The borrowers once a thread came to where a step leads. -/
def advance (c : Borrowers α) (t : Tid) (p : Guarded.Point) (before : Guarded α)
    (next : Guarded α × Next Guarded.Point Guarded.Outcome) : Borrowers α :=
  { c with
    guarded := next.1
    calls := Function.update c.calls t ((Guarded.place next.2).map fun p => (p, before))
    guards := Function.update c.guards t (guardAfter (c.guards t) p next.2)
    history := endNews t (c.guards t) before next.1 next.2 ++
      (accessNews t c.guarded p ++ c.history) }

def beginDrop (c : Borrowers α) (t : Tid) : Borrowers α :=
  match c.calls t, c.guards t with
  | none, true =>
    { c with
      calls := Function.update c.calls t (some (.endLoan, c.guarded))
      copies := Function.update c.copies t none }
  | _, _ => c

def handle (c : Borrowers α) : Event α → Borrowers α
  | .lock t =>
    match c.calls t with
    | none => { c with calls := Function.update c.calls t (some (.locking .lockCheck, c.guarded)) }
    | some _ => c
  | .load t =>
    match c.calls t, c.guards t with
    | none, true => { c with copies := Function.update c.copies t (some c.guarded.value) }
    | _, _ => c
  | .store t change =>
    match c.calls t, c.copies t with
    | none, some copy =>
      { c with
        guarded := c.guarded.write fun _ => change copy
        copies := Function.update c.copies t none, history := .wrote t change :: c.history }
    | _, _ => c
  | .drop t | .raise t => c.beginDrop t
  | .step t =>
    match c.calls t with
    | none => c
    | some (p, before) =>
      match Guarded.step t c.guarded p with
      | none => c
      | some next => c.advance t p before next

def run (c : Borrowers α) (events : List (Event α)) : Borrowers α := events.foldl handle c

end Borrowers

/-! ## Steps -/

namespace Mutex

variable {m m' : Mutex} {me : Tid} {p q : Point} {o : Outcome}

def Point.isUnlock : Point → Bool
  | .unlockCheck | .unlockLoad | .unlockStore _ | .unlockClear | .unlockSignal => true
  | .lockCheck | .lockAwait | .lockOwn | .lockLoad | .lockStore _ => false

theorem Steps.isUnlock_eq (h : Steps me m p m' (.goto q)) : q.isUnlock = p.isUnlock := by
  cases h <;> rfl

theorem Steps.outcome_of_lock (h : Steps me m p m' (.done o)) (hp : p.isUnlock = false) :
    (p = .lockLoad ∧ o = .overflow ∧ m.maxDepth ≤ m.held) ∨
      ∃ held, p = .lockStore held ∧ o = .locked ∧ m' = { m with held } := by
  cases h with
  | full hfull => exact Or.inl ⟨rfl, rfl, hfull⟩
  | gain held => exact Or.inr ⟨held, rfl, rfl, rfl⟩
  | notHolder | release | putBack => cases hp

theorem Steps.maxDepth_eq {turn : Next Point Outcome} (h : Steps me m p m' turn) :
    m'.maxDepth = m.maxDepth := by
  cases h <;> rfl

theorem Orderly.eq_of_apart {holder : Option Tid} {place : Tid → Option Point} {depth : Tid → Nat}
    {turn : Next Point Outcome} {t : Tid} (h : m.Orderly holder place depth)
    (ht : holder = some t) (hme : me ≠ t) (hp : place me = some p)
    (hstep : Steps me m p m' turn) : m' = m := by
  have hapart := (h.apart me fun heq => hme (Option.some.inj (heq.symm.trans ht))).2
  rw [hp] at hapart
  cases hstep with
  | isOwner | notOwner | isHolder | notHolder => rfl
  | receive htoken =>
    rw [h.holder_eq_none htoken] at ht
    cases ht
  | own | full | room | gain | count | release | last | disown | putBack => exact hapart.elim

end Mutex

namespace Guarded

variable {α : Type} {g g' : Guarded α} {m : Mutex} {me : Tid} {p : Point} {q : Mutex.Point}
  {turn : Next Point Outcome} {o : Mutex.Outcome}

/-- The steps of a thread, one rule for each way to go on from a point. -/
inductive Steps (me : Tid) (g : Guarded α) : Point → Guarded α → Next Point Outcome → Prop where
  | lock {p q : Mutex.Point} {m : Mutex} (hmutex : Mutex.Steps me g.mutex p m (.goto q)) :
    Steps me g (.locking p) { g with mutex := m } (.goto (.locking q))
  | locked {p : Mutex.Point} {m : Mutex} (hmutex : Mutex.Steps me g.mutex p m (.done .locked)) :
    Steps me g (.locking p) { g with mutex := m } (.goto .borrow)
  | overflow {p : Mutex.Point} {m : Mutex} {o : Mutex.Outcome}
    (hmutex : Mutex.Steps me g.mutex p m (.done o)) (ho : o ≠ .locked) :
    Steps me g (.locking p) { g with mutex := m } (.done .overflow)
  | refuse (hlent : g.lent = true) : Steps me g .borrow g (.goto (.unwinding .unlockCheck))
  | lend (hlent : g.lent = false) : Steps me g .borrow { g with lent := true } (.done .guarded)
  | unwind {p q : Mutex.Point} {m : Mutex} (hmutex : Mutex.Steps me g.mutex p m (.goto q)) :
    Steps me g (.unwinding p) { g with mutex := m } (.goto (.unwinding q))
  | unwound {p : Mutex.Point} {m : Mutex} {o : Mutex.Outcome}
    (hmutex : Mutex.Steps me g.mutex p m (.done o)) :
    Steps me g (.unwinding p) { g with mutex := m } (.done .alreadyBorrowed)
  | endLoan : Steps me g .endLoan { g with lent := false } (.goto (.unlocking .unlockCheck))
  | unlock {p q : Mutex.Point} {m : Mutex} (hmutex : Mutex.Steps me g.mutex p m (.goto q)) :
    Steps me g (.unlocking p) { g with mutex := m } (.goto (.unlocking q))
  | unlocked {p : Mutex.Point} {m : Mutex} {o : Mutex.Outcome}
    (hmutex : Mutex.Steps me g.mutex p m (.done o)) :
    Steps me g (.unlocking p) { g with mutex := m } (.done .released)

theorem steps_of_step (hstep : step me g p = some (g', turn)) : Steps me g p g' turn := by
  cases p with
  | locking p =>
    obtain ⟨⟨m, next⟩, hmutex, heq⟩ := Option.map_eq_some_iff.1 hstep
    have hsteps := Mutex.steps_of_step hmutex
    cases next with
    | goto q =>
      obtain ⟨rfl, rfl⟩ := Prod.mk.inj heq
      exact .lock hsteps
    | done o =>
      cases o with
      | locked =>
        obtain ⟨rfl, rfl⟩ := Prod.mk.inj heq
        exact .locked hsteps
      | overflow | unlocked | notHolder =>
        obtain ⟨rfl, rfl⟩ := Prod.mk.inj heq
        exact .overflow hsteps (by decide)
  | borrow =>
    simp only [step] at hstep
    split at hstep
    · obtain ⟨rfl, rfl⟩ := Prod.mk.inj (Option.some.inj hstep)
      exact .refuse ‹_›
    · obtain ⟨rfl, rfl⟩ := Prod.mk.inj (Option.some.inj hstep)
      exact .lend (Bool.eq_false_iff.2 ‹_›)
  | unwinding p =>
    obtain ⟨⟨m, next⟩, hmutex, heq⟩ := Option.map_eq_some_iff.1 hstep
    have hsteps := Mutex.steps_of_step hmutex
    cases next <;> obtain ⟨rfl, rfl⟩ := Prod.mk.inj heq
    · exact .unwind hsteps
    · exact .unwound hsteps
  | endLoan =>
    obtain ⟨rfl, rfl⟩ := Prod.mk.inj (Option.some.inj hstep)
    exact .endLoan
  | unlocking p =>
    obtain ⟨⟨m, next⟩, hmutex, heq⟩ := Option.map_eq_some_iff.1 hstep
    have hsteps := Mutex.steps_of_step hmutex
    cases next <;> obtain ⟨rfl, rfl⟩ := Prod.mk.inj heq
    · exact .unlock hsteps
    · exact .unlocked hsteps

/-- The flag plays no part in a step that does not touch the loan. -/
theorem step_of_not_touchesLoan (me : Tid) (g : Guarded α) (hp : p.touchesLoan = false)
    (lent : Bool) :
    step me { g with lent } p = (step me g p).map fun next => ({ next.1 with lent }, next.2) := by
  cases p with
  | borrow | endLoan => cases hp
  | locking p | unwinding p | unlocking p =>
    simp only [step, Option.map_map]
    refine congrArg (Option.map · _) (funext fun next => ?_)
    obtain ⟨m, q | o⟩ := next
    · rfl
    · cases o <;> rfl

theorem Steps.value_eq (h : Steps me g p g' turn) : g'.value = g.value := by
  cases h <;> rfl

theorem Steps.maxDepth_eq (h : Steps me g p g' turn) : g'.mutex.maxDepth = g.mutex.maxDepth := by
  cases h with
  | lock hmutex | locked hmutex | overflow hmutex | unwind hmutex | unwound hmutex | unlock hmutex
  | unlocked hmutex => exact hmutex.maxDepth_eq
  | refuse | lend | endLoan => rfl

theorem Steps.place_ne_endLoan (h : Steps me g p g' turn) : place turn ≠ some .endLoan := by
  cases h <;> nofun

/-! ## Where the threads stand -/

/-- What a thread with a guard, or without one, does at a point. -/
def Point.Fits (had : Bool) : Point → Prop
  | .locking p => p.isUnlock = false
  | .borrow => True
  | .unwinding p => had = true ∧ p.isUnlock = true
  | .endLoan => had = true
  | .unlocking p => had = false ∧ p.isUnlock = true

/-- What an attempt to lock by a thread that has a guard has changed when it comes to a point. -/
def Point.Follows (before now : Guarded α) : Point → Prop
  | .locking _ => before.mutex.held = 1 ∧ now = before
  | .borrow | .unwinding _ =>
    before.mutex.held = 1 ∧ now = { before with mutex := { before.mutex with held := 2 } }
  | .endLoan | .unlocking _ => True

/-- Who has the token after a step from a point. -/
def Point.holder (me : Tid) (holder : Option Tid) : Point → Option Tid
  | .locking p | .unwinding p | .unlocking p => p.holder me holder
  | .borrow | .endLoan => holder

theorem Point.holder_of_fits {had : Bool} {holder : Option Tid} {t : Tid} (hfits : p.Fits had)
    (hawait : p ≠ .locking .lockAwait) (h : p.holder me holder = some t) : holder = some t := by
  cases p with
  | borrow | endLoan => exact h
  | locking q =>
    cases q with
    | lockAwait => exact absurd rfl hawait
    | unlockSignal => cases h
    | _ => exact h
  | unwinding q | unlocking q =>
    cases q with
    | lockAwait => cases hfits.2
    | unlockSignal => cases h
    | _ => exact h

theorem eq_lockAwait_of_blocked {had : Bool} (hfits : p.Fits had) (hnone : step me g p = none) :
    p = .locking .lockAwait := by
  have hawait : ∀ q, Mutex.step me g.mutex q = none → q = .lockAwait := by
    intro q hq
    cases q with
    | lockAwait => rfl
    | lockCheck | lockOwn | lockStore | unlockLoad | unlockStore | unlockClear | unlockSignal =>
      cases hq
    | lockLoad | unlockCheck =>
      simp only [Mutex.step] at hq
      split at hq <;> cases hq
  cases p with
  | borrow =>
    simp only [step] at hnone
    split at hnone <;> cases hnone
  | endLoan => cases hnone
  | locking q => rw [hawait q (Option.map_eq_none_iff.1 hnone)]
  | unwinding q | unlocking q =>
    rw [hawait q (Option.map_eq_none_iff.1 hnone)] at hfits
    cases hfits.2

end Guarded

namespace Borrowers

variable {α : Type} {c : Borrowers α} {initial : α} {holder : Option Tid} {t u : Tid}
  {p : Guarded.Point} {before g' : Guarded α} {turn : Next Guarded.Point Guarded.Outcome}

/-- The mutex is as the threads say, and so is the loan; the history tells the value. -/
structure Kept (initial : α) (c : Borrowers α) (holder : Option Tid) : Prop where
  orderly : c.guarded.mutex.Orderly holder (Guarded.mutexPlace ∘ c.point?) c.depth
  unlimited : c.guarded.mutex.maxDepth = Mutex.unlimited
  lent_iff : c.guarded.lent = true ↔ ∃ t, c.guards t = true
  fits : ∀ t p, c.point? t = some p → p.Fits (c.guards t)
  follows : ∀ t p before, c.calls t = some (p, before) → c.guards t = true →
    p.Follows before c.guarded
  copy : ∀ t copy, c.copies t = some copy →
    c.guards t = true ∧ copy = c.guarded.value ∧ c.point? t ≠ some .endLoan
  value_eq : c.guarded.value = LoanDeed.applied initial c.history
  acquirer : ∀ t, holder = some t → LoanDeed.lastAcquirer c.history = some t
  lawful : Lawful LoanDeed.Law c.history

theorem kept_start (initial : α) : (start initial).Kept initial none :=
  { orderly := Mutex.orderly_withLimit Mutex.unlimited
    unlimited := rfl
    lent_iff := ⟨fun h => (Bool.false_ne_true h).elim, fun ⟨_, h⟩ => (Bool.false_ne_true h).elim⟩
    fits := fun _ _ h => by cases h
    follows := fun _ _ _ h => by cases h
    copy := fun _ _ h => by cases h
    value_eq := rfl
    acquirer := fun _ h => by cases h
    lawful := lawful_nil }

namespace Kept

theorem holder_of_depth (h : c.Kept initial holder) (hdepth : 0 < c.depth t) : holder = some t := by
  by_contra hne
  have hzero := (h.orderly.apart t hne).1
  omega

theorem holder_of_guard (h : c.Kept initial holder) (ht : c.guards t = true) : holder = some t := by
  apply h.holder_of_depth
  rw [depth, if_pos ht]
  omega

theorem point?_of_call {call : Option (Guarded.Point × Guarded α)} (hcall : c.calls t = call) :
    c.point? t = call.map (·.1) := by
  rw [point?, hcall]

theorem guard_unique (h : c.Kept initial holder) (ht : c.guards t = true)
    (hu : c.guards u = true) : u = t :=
  Option.some.inj ((h.holder_of_guard hu).symm.trans (h.holder_of_guard ht))

theorem sees (h : c.Kept initial holder) (ht : holder = some t) {q : Option Mutex.Point}
    (hq : Guarded.mutexPlace (c.point? t) = q) : c.guarded.mutex.Sees t (c.depth t) q :=
  hq ▸ h.orderly.sees t ht

theorem owner_of_guard (h : c.Kept initial holder) (ht : c.guards t = true) :
    c.guarded.mutex.owner = some t := by
  have hsees := h.orderly.sees t (h.holder_of_guard ht)
  have hdepth : c.depth t = 1 + Guarded.extraDepth (c.point? t) := by rw [depth, if_pos ht]
  rw [hdepth] at hsees
  cases hp : c.point? t with
  | none =>
    rw [Function.comp_apply, hp] at hsees
    exact hsees.1
  | some p =>
    have hfits := h.fits t p hp
    rw [Function.comp_apply, hp] at hsees
    rw [ht] at hfits
    cases p with
    | borrow | endLoan => exact hsees.1
    | unlocking q => exact absurd hfits.1 (by decide)
    | locking q =>
      cases q with
      | lockAwait => exact hsees.elim
      | lockOwn => exact absurd hsees.2.2 (by simp [Guarded.extraDepth])
      | lockCheck | lockLoad | lockStore _ => exact hsees.1
      | unlockCheck | unlockLoad | unlockStore _ | unlockClear | unlockSignal => cases hfits
    | unwinding q =>
      cases q with
      | unlockCheck | unlockLoad | unlockStore _ | unlockClear => exact hsees.1
      | unlockSignal => exact absurd hsees.2.2 (by simp [Guarded.extraDepth])
      | lockCheck | lockAwait | lockOwn | lockLoad | lockStore _ => cases hfits.2

/-! ### A step -/

@[simp] theorem point?_advance (c : Borrowers α) (t : Tid) (p : Guarded.Point) (before g' : Guarded α)
    (turn : Next Guarded.Point Guarded.Outcome) :
    (c.advance t p before (g', turn)).point? = Function.update c.point? t (Guarded.place turn) := by
  funext u
  simp only [point?, advance]
  by_cases hu : u = t
  · subst hu
    cases Guarded.place turn <;> simp
  · rw [Function.update_of_ne hu, Function.update_of_ne hu, point?]

theorem depth_advance (c : Borrowers α) (t : Tid) (p : Guarded.Point) (before g' : Guarded α)
    (turn : Next Guarded.Point Guarded.Outcome) :
    (c.advance t p before (g', turn)).depth = Function.update c.depth t
      ((if guardAfter (c.guards t) p turn then 1 else 0) +
        Guarded.extraDepth (Guarded.place turn)) := by
  funext u
  rw [depth, point?_advance]
  simp only [advance]
  by_cases hu : u = t
  · subst hu
    simp only [Function.update_self]
  · simp only [Function.update_of_ne hu, depth]

theorem orderly_mutex (h : c.Kept initial holder) {q : Mutex.Point} {m : Mutex}
    {next : Next Mutex.Point Mutex.Outcome} (hq : Guarded.mutexPlace (c.point? t) = some q)
    (hstep : Mutex.Steps t c.guarded.mutex q m next) :
    m.Orderly (q.holder t holder)
      (Function.update (Guarded.mutexPlace ∘ c.point?) t (Mutex.place next))
      (Function.update c.depth t (Mutex.depthAfter (c.depth t) next)) :=
  Mutex.orderly_of_step h.orderly hq hstep

theorem unlocked_of_done (h : c.Kept initial holder) {q : Mutex.Point} {m : Mutex}
    {o : Mutex.Outcome} (hq : Guarded.mutexPlace (c.point? t) = some q) (hunlock : q.isUnlock = true)
    (hdepth : 0 < c.depth t) (hstep : Mutex.Steps t c.guarded.mutex q m (.done o)) :
    o = .unlocked := by
  cases hstep with
  | notHolder howner => exact absurd (h.sees (h.holder_of_depth hdepth) hq).1 howner
  | release | putBack => rfl
  | full | gain => cases hunlock

theorem lent_iff_guard (h : c.Kept initial holder) (hp : c.point? t = some .borrow) :
    c.guarded.lent = true ↔ c.guards t = true := by
  rw [h.lent_iff]
  refine ⟨fun ⟨u, hu⟩ => ?_, fun ht => ⟨t, ht⟩⟩
  have ht : holder = some t := h.holder_of_depth (by simp [depth, hp, Guarded.extraDepth])
  obtain rfl := Option.some.inj ((h.holder_of_guard hu).symm.trans ht)
  exact hu

theorem guard_of_lend (h : c.Kept initial holder) (hp : c.point? t = some .borrow)
    (hlent : c.guarded.lent = false) : c.guards t = false := by
  rw [← Bool.not_eq_true, ← h.lent_iff_guard hp, hlent]
  exact Bool.false_ne_true

theorem orderly_of_steps (h : c.Kept initial holder) (hp : c.point? t = some p)
    (hstep : Guarded.Steps t c.guarded p g' turn) :
    g'.mutex.Orderly (p.holder t holder)
      (Function.update (Guarded.mutexPlace ∘ c.point?) t
        (Guarded.mutexPlace (Guarded.place turn)))
      (Function.update c.depth t ((if guardAfter (c.guards t) p turn then 1 else 0) +
        Guarded.extraDepth (Guarded.place turn))) := by
  have hfits := h.fits t p hp
  have hdepth : c.depth t = (if c.guards t then 1 else 0) + Guarded.extraDepth (some p) := by
    rw [depth, hp]
  cases hstep with
  | lock hmutex | locked hmutex | unwind hmutex | unlock hmutex =>
    have hnext := h.orderly_mutex (congrArg Guarded.mutexPlace hp) hmutex
    rw [Mutex.depthAfter, hdepth] at hnext
    exact hnext
  | overflow hmutex ho =>
    have hnext := h.orderly_mutex (congrArg Guarded.mutexPlace hp) hmutex
    rcases hmutex.outcome_of_lock hfits with ⟨-, rfl, -⟩ | ⟨-, -, rfl, -⟩
    · rw [Mutex.depthAfter, hdepth] at hnext
      exact hnext
    · exact absurd rfl ho
  | refuse =>
    have hplace : (Guarded.mutexPlace ∘ c.point?) t = none := congrArg Guarded.mutexPlace hp
    have hnext := h.orderly.enter (p := .unlockCheck) hplace (Or.inr rfl)
    have hsame := Function.update_eq_self t c.depth
    rw [hdepth] at hsame
    rw [← hsame] at hnext
    exact hnext
  | lend hlent =>
    have hguard := h.guard_of_lend hp hlent
    have hplace : (Guarded.mutexPlace ∘ c.point?) t = none := congrArg Guarded.mutexPlace hp
    rw [hguard] at hdepth
    have hplaces := Function.update_eq_self t (Guarded.mutexPlace ∘ c.point?)
    have hdepths := Function.update_eq_self t c.depth
    rw [hplace] at hplaces
    rw [hdepth] at hdepths
    have hnext := h.orderly
    rw [← hplaces, ← hdepths] at hnext
    exact hnext
  | @unwound q _ _ hmutex =>
    obtain ⟨hguard, hunlock⟩ := hfits
    have hq : Guarded.mutexPlace (c.point? t) = some q := congrArg Guarded.mutexPlace hp
    have hnext := h.orderly_mutex hq hmutex
    obtain rfl := h.unlocked_of_done hq hunlock (by rw [hdepth]; simp [Guarded.extraDepth]) hmutex
    rw [Mutex.depthAfter, hdepth] at hnext
    exact hnext
  | endLoan =>
    have hguard : c.guards t = true := hfits
    have hplace : (Guarded.mutexPlace ∘ c.point?) t = none := congrArg Guarded.mutexPlace hp
    have hnext := h.orderly.enter (p := .unlockCheck) hplace (Or.inr rfl)
    have hsame := Function.update_eq_self t c.depth
    rw [hdepth, if_pos hguard] at hsame
    rw [← hsame] at hnext
    exact hnext
  | @unlocked q _ _ hmutex =>
    obtain ⟨hguard, hunlock⟩ := hfits
    have hq : Guarded.mutexPlace (c.point? t) = some q := congrArg Guarded.mutexPlace hp
    have hnext := h.orderly_mutex hq hmutex
    obtain rfl := h.unlocked_of_done hq hunlock (by rw [hdepth]; simp [Guarded.extraDepth]) hmutex
    rw [Mutex.depthAfter, hdepth, hguard] at hnext
    rw [show guardAfter (c.guards t) _ _ = c.guards t from rfl, hguard]
    exact hnext

theorem fits_of_steps (h : c.Kept initial holder) (hp : c.point? t = some p)
    (hstep : Guarded.Steps t c.guarded p g' turn) {q : Guarded.Point}
    (hq : Guarded.place turn = some q) : q.Fits (guardAfter (c.guards t) p turn) := by
  have hfits := h.fits t p hp
  cases hstep with
  | lock hmutex =>
    obtain rfl := Option.some.inj hq
    exact hmutex.isUnlock_eq.trans hfits
  | locked =>
    obtain rfl := Option.some.inj hq
    trivial
  | refuse hlent =>
    obtain rfl := Option.some.inj hq
    exact ⟨(h.lent_iff_guard hp).1 hlent, rfl⟩
  | unwind hmutex =>
    obtain rfl := Option.some.inj hq
    exact ⟨hfits.1, hmutex.isUnlock_eq.trans hfits.2⟩
  | endLoan =>
    obtain rfl := Option.some.inj hq
    exact ⟨rfl, rfl⟩
  | unlock hmutex =>
    obtain rfl := Option.some.inj hq
    exact ⟨hfits.1, hmutex.isUnlock_eq.trans hfits.2⟩
  | overflow | lend | unwound | unlocked => cases hq

theorem no_overflow (h : c.Kept initial holder) (hp : c.point? t = some (.locking .lockLoad)) :
    c.guarded.mutex.held < c.guarded.mutex.maxDepth := by
  have hplace : (Guarded.mutexPlace ∘ c.point?) t = some .lockLoad :=
    congrArg Guarded.mutexPlace hp
  obtain ⟨-, -, hheld, -⟩ := h.orderly.sees_of_place hplace id
  rw [h.unlimited, hheld, depth, hp]
  split <;> decide

/-- An attempt by a thread that has a guard goes on with what it has changed, or ends as it began. -/
theorem follows_of_steps (h : c.Kept initial holder) (hcall : c.calls t = some (p, before))
    (hguard : c.guards t = true) (hstep : Guarded.Steps t c.guarded p g' turn) :
    (∀ q, Guarded.place turn = some q → q.Follows before g') ∧
      (turn = .done .alreadyBorrowed → g' = before) := by
  have hp : c.point? t = some p := point?_of_call hcall
  have hfits := h.fits t p hp
  have hfollows := h.follows t p before hcall hguard
  have hdepth : c.depth t = 1 + Guarded.extraDepth (some p) := by rw [depth, hp, if_pos hguard]
  have hholder := h.holder_of_guard hguard
  have hsees := h.sees hholder (congrArg Guarded.mutexPlace hp)
  rw [hdepth] at hsees
  rw [hguard] at hfits
  cases hstep with
  | lock hmutex =>
    refine ⟨fun q hq => ?_, nofun⟩
    obtain rfl := Option.some.inj hq
    cases hmutex with
    | isOwner | notOwner | room => exact hfollows
    -- a thread with a guard holds a level already, so that it takes no token
    | receive htoken =>
      rw [h.orderly.holder_eq_none htoken] at hholder
      cases hholder
    | own => exact absurd hsees.2.2 (by simp [Guarded.extraDepth])
    | isHolder | count | last | disown => cases hfits
  | locked hmutex =>
    refine ⟨fun q hq => ?_, nofun⟩
    obtain rfl := Option.some.inj hq
    cases hmutex with
    | gain held =>
      obtain rfl : held = 2 := hsees.2.1
      exact ⟨hfollows.1, by rw [hfollows.2]⟩
  | overflow hmutex ho =>
    rcases hmutex.outcome_of_lock hfits with ⟨rfl, rfl, hfull⟩ | ⟨-, -, rfl, -⟩
    · exact absurd (h.no_overflow hp) (Nat.not_lt.2 hfull)
    · exact absurd rfl ho
  | refuse =>
    refine ⟨fun q hq => ?_, nofun⟩
    obtain rfl := Option.some.inj hq
    exact hfollows
  | lend hlent => exact absurd ((h.lent_iff_guard hp).2 hguard) (by simp [hlent])
  | unwind hmutex =>
    refine ⟨fun q hq => ?_, nofun⟩
    obtain rfl := Option.some.inj hq
    cases hmutex with
    | isHolder | count => exact hfollows
    | last => exact absurd hsees.2.1 (by simp [Guarded.extraDepth])
    | disown => exact absurd hsees.2.2 (by simp [Guarded.extraDepth])
    | isOwner | notOwner | receive | own | room => cases hfits.2
  | unwound hmutex =>
    refine ⟨nofun, fun _ => ?_⟩
    cases hmutex with
    | notHolder howner => exact absurd hsees.1 howner
    | release held =>
      obtain rfl : held = 1 := (Nat.succ.inj hsees.2.1).symm
      rw [hfollows.2]
      simp only [← hfollows.1]
    | putBack => exact absurd hsees.2.2 (by simp [Guarded.extraDepth])
    | full | gain => cases hfits.2
  | endLoan =>
    refine ⟨fun q hq => ?_, nofun⟩
    obtain rfl := Option.some.inj hq
    trivial
  | unlock | unlocked => exact absurd hfits.1 (by decide)

theorem free_of_unlocked (h : c.Kept initial holder) {q : Mutex.Point} {m : Mutex}
    {o : Mutex.Outcome} (hp : c.point? t = some (.unlocking q))
    (hstep : Mutex.Steps t c.guarded.mutex q m (.done o)) :
    c.guarded.lent = false ∧ m.owner = none ∧ m.held = 0 ∧ m.token.isPending = true := by
  obtain ⟨hguard, hunlock⟩ := h.fits t _ hp
  have hq : Guarded.mutexPlace (c.point? t) = some q := congrArg Guarded.mutexPlace hp
  have hdepth : c.depth t = 1 := by
    rw [depth, hp, hguard]
    rfl
  have hholder : holder = some t := h.holder_of_depth (by omega)
  have hsees := h.sees hholder hq
  have hlent : c.guarded.lent = false := by
    by_contra hne
    obtain ⟨u, hu⟩ := h.lent_iff.1 (by simpa using hne)
    obtain rfl := Option.some.inj ((h.holder_of_guard hu).symm.trans hholder)
    exact Bool.false_ne_true (hguard.symm.trans hu)
  refine ⟨hlent, ?_⟩
  cases hstep with
  | notHolder howner => exact absurd hsees.1 howner
  | release held hpos => exact absurd (hsees.2.1.symm.trans hdepth) (by omega)
  | putBack =>
    have hput := (Mutex.Orderly.putBack (hholder ▸ h.orderly) hq).1
    refine ⟨hsees.1, hsees.2.1, ?_⟩
    rw [hput]
    rfl
  | full | gain => cases hunlock

theorem law_of_access (h : c.Kept initial holder) (hp : c.point? t = some p) :
    Lawful LoanDeed.Law (accessNews t c.guarded p ++ c.history) := by
  have howner : p = .borrow ∨ p = .endLoan → c.guarded.mutex.owner = some t := by
    rintro (rfl | rfl)
    · have ht : holder = some t := h.holder_of_depth (by simp [depth, hp, Guarded.extraDepth])
      exact (h.sees ht (congrArg Guarded.mutexPlace hp)).1
    · exact h.owner_of_guard (h.fits t _ hp)
  cases p with
  | borrow => exact lawful_cons.2 ⟨howner (Or.inl rfl), h.lawful⟩
  | endLoan => exact lawful_cons.2 ⟨howner (Or.inr rfl), h.lawful⟩
  | unwinding | unlocking => exact h.lawful
  | locking q =>
    cases q with
    | lockAwait => exact lawful_cons.2 ⟨trivial, h.lawful⟩
    | _ => exact h.lawful

theorem law_of_steps (h : c.Kept initial holder) (hcall : c.calls t = some (p, before))
    (hstep : Guarded.Steps t c.guarded p g' turn) :
    Lawful LoanDeed.Law (c.advance t p before (g', turn)).history := by
  have hp : c.point? t = some p := point?_of_call hcall
  have haccess := h.law_of_access hp
  simp only [advance]
  cases hstep with
  | lock | locked | refuse | unwind | endLoan | unlock => exact haccess
  | overflow hmutex ho =>
    rcases hmutex.outcome_of_lock (h.fits t _ hp) with ⟨rfl, rfl, hfull⟩ | ⟨-, -, rfl, -⟩
    · exact absurd (h.no_overflow hp) (Nat.not_lt.2 hfull)
    · exact absurd rfl ho
  | lend hlent =>
    have hguard := h.guard_of_lend hp hlent
    exact lawful_cons.2 ⟨⟨by rw [hguard]; rfl, by rw [hguard]; nofun⟩, haccess⟩
  | unwound hmutex =>
    have hguard : c.guards t = true := (h.fits t _ hp).1
    refine lawful_cons.2 ⟨⟨by rw [hguard]; rfl, fun _ => ?_⟩, haccess⟩
    exact (h.follows_of_steps hcall hguard (.unwound hmutex)).2 rfl
  | unlocked hmutex => exact lawful_cons.2 ⟨h.free_of_unlocked hp hmutex, haccess⟩

theorem lastAcquirer_advance (c : Borrowers α) (t : Tid) (p : Guarded.Point) (before g' : Guarded α)
    (turn : Next Guarded.Point Guarded.Outcome) :
    LoanDeed.lastAcquirer (c.advance t p before (g', turn)).history =
      if p = .locking .lockAwait then some t else LoanDeed.lastAcquirer c.history := by
  have hend : ∀ past, LoanDeed.lastAcquirer (endNews t (c.guards t) before g' turn ++ past) =
      LoanDeed.lastAcquirer past := by
    intro past
    cases turn with
    | goto => rfl
    | done o => cases o <;> rfl
  rw [advance, hend]
  cases p with
  | locking q => cases q <;> rfl
  | borrow | unwinding | endLoan | unlocking => rfl

theorem applied_advance (c : Borrowers α) (t : Tid) (p : Guarded.Point) (before g' : Guarded α)
    (turn : Next Guarded.Point Guarded.Outcome) :
    LoanDeed.applied initial (c.advance t p before (g', turn)).history =
      LoanDeed.applied initial c.history := by
  have hend : ∀ past, LoanDeed.applied initial (endNews t (c.guards t) before g' turn ++ past) =
      LoanDeed.applied initial past := by
    intro past
    cases turn with
    | goto => rfl
    | done o => cases o <;> rfl
  rw [advance, hend]
  cases p with
  | locking q => cases q <;> rfl
  | borrow | unwinding | endLoan | unlocking => rfl

theorem eq_of_other (h : c.Kept initial holder) (hu : holder = some u) (hne : t ≠ u)
    (hp : c.point? t = some p) (hstep : Guarded.Steps t c.guarded p g' turn) : g' = c.guarded := by
  have hother : holder ≠ some t := fun heq => hne (Option.some.inj (heq.symm.trans hu))
  have hzero := (h.orderly.apart t hother).1
  have hmutex : ∀ q m next, Guarded.mutexPlace (some p) = some q →
      Mutex.Steps t c.guarded.mutex q m next → m = c.guarded.mutex := by
    intro q m next hq hnext
    exact h.orderly.eq_of_apart hu hne (by rw [Function.comp_apply, hp, hq]) hnext
  cases hstep with
  | lock hnext | locked hnext | overflow hnext | unwind hnext | unwound hnext | unlock hnext
  | unlocked hnext => rw [hmutex _ _ _ rfl hnext]
  | refuse => rfl
  | lend => simp [depth, hp, Guarded.extraDepth] at hzero
  | endLoan => exact absurd (h.holder_of_guard (h.fits t _ hp)) hother

theorem lent_iff_advance (h : c.Kept initial holder) (hp : c.point? t = some p)
    (hstep : Guarded.Steps t c.guarded p g' turn) :
    g'.lent = true ↔
      ∃ u, Function.update c.guards t (guardAfter (c.guards t) p turn) u = true := by
  have hsame : c.guarded.lent = true ↔ ∃ u, Function.update c.guards t (c.guards t) u = true := by
    rw [Function.update_eq_self]
    exact h.lent_iff
  cases hstep with
  | lock | locked | overflow | refuse | unwind | unwound | unlock | unlocked => exact hsame
  | lend => exact ⟨fun _ => ⟨t, Function.update_self ..⟩, fun _ => rfl⟩
  | endLoan =>
    refine ⟨nofun, fun ⟨u, hu⟩ => ?_⟩
    by_cases hne : u = t
    · subst hne
      rw [Function.update_self] at hu
      cases hu
    · rw [Function.update_of_ne hne] at hu
      exact absurd (h.guard_unique (h.fits t _ hp) hu) hne

theorem guardAfter_of_guard {had : Bool} (hguard : had = true) (hp : p ≠ .endLoan) :
    guardAfter had p turn = true := by
  subst hguard
  cases p with
  | endLoan => exact absurd rfl hp
  | locking | borrow | unwinding | unlocking =>
    cases turn with
    | goto => rfl
    | done o => cases o <;> rfl

theorem step (h : c.Kept initial holder) (hcall : c.calls t = some (p, before))
    (hstep : Guarded.Steps t c.guarded p g' turn) :
    (c.advance t p before (g', turn)).Kept initial (p.holder t holder) := by
  have hp : c.point? t = some p := point?_of_call hcall
  refine
    { orderly := ?_, unlimited := hstep.maxDepth_eq.trans h.unlimited
      lent_iff := h.lent_iff_advance hp hstep, fits := fun u q hq => ?_
      follows := fun u q before' hq hguard => ?_, copy := fun u copy hcopy => ?_
      value_eq := ?_, acquirer := fun u hu => ?_, lawful := h.law_of_steps hcall hstep }
  · rw [point?_advance, depth_advance, Function.comp_update]
    exact h.orderly_of_steps hp hstep
  · rw [point?_advance] at hq
    simp only [advance]
    by_cases hu : u = t
    · subst hu
      rw [Function.update_self] at hq ⊢
      exact h.fits_of_steps hp hstep hq
    · rw [Function.update_of_ne hu] at hq ⊢
      exact h.fits u q hq
  · simp only [advance] at hq hguard ⊢
    by_cases hu : u = t
    · subst hu
      rw [Function.update_self] at hq hguard
      obtain ⟨q', hplace, heq⟩ := Option.map_eq_some_iff.1 hq
      obtain ⟨rfl, rfl⟩ := Prod.mk.inj heq
      cases hhad : c.guards u with
      | true => exact (h.follows_of_steps hcall hhad hstep).1 q' hplace
      | false =>
        -- a guard is gained only where the call ends
        rw [hhad] at hguard
        cases turn with
        | goto => cases p <;> cases hguard
        | done => cases hplace
    · rw [Function.update_of_ne hu] at hq hguard
      rw [h.eq_of_other (h.holder_of_guard hguard) (Ne.symm hu) hp hstep]
      exact h.follows u q before' hq hguard
  · obtain ⟨hguard, rfl, hplace⟩ := h.copy u copy hcopy
    rw [point?_advance]
    simp only [advance]
    refine ⟨?_, hstep.value_eq.symm, ?_⟩
    · by_cases hu : u = t
      · subst hu
        rw [Function.update_self]
        exact guardAfter_of_guard hguard fun heq => hplace (heq ▸ hp)
      · rwa [Function.update_of_ne hu]
    · by_cases hu : u = t
      · subst hu
        rw [Function.update_self]
        exact hstep.place_ne_endLoan
      · rwa [Function.update_of_ne hu]
  · rw [applied_advance]
    exact hstep.value_eq.trans h.value_eq
  · rw [lastAcquirer_advance]
    by_cases hawait : p = .locking .lockAwait
    · rw [if_pos hawait]
      rw [hawait] at hu
      exact hu
    · rw [if_neg hawait]
      exact h.acquirer u (Guarded.Point.holder_of_fits (h.fits t p hp) hawait hu)

/-! ### The other events -/

@[simp] theorem point?_enter (c : Borrowers α) (t : Tid) (p : Guarded.Point) (copies : Tid → Option α) :
    point? { c with
        calls := Function.update c.calls t (some (p, c.guarded)), copies } =
      Function.update c.point? t (some p) := by
  funext u
  simp only [point?]
  by_cases hu : u = t
  · rw [hu, Function.update_self, Function.update_self]
    rfl
  · rw [Function.update_of_ne hu, Function.update_of_ne hu, point?]

theorem depth_enter (hcall : c.calls t = none) (hp : Guarded.extraDepth (some p) = 0)
    (copies : Tid → Option α) :
    depth { c with calls := Function.update c.calls t (some (p, c.guarded)), copies } =
      c.depth := by
  funext u
  rw [depth, point?_enter, depth]
  by_cases hu : u = t
  · have hpoint : c.point? t = none := point?_of_call hcall
    rw [hu, Function.update_self, hpoint, hp]
    rfl
  · rw [Function.update_of_ne hu]

theorem lock (h : c.Kept initial holder) (t : Tid) : (c.handle (.lock t)).Kept initial holder := by
  simp only [Borrowers.handle]
  cases hcall : c.calls t with
  | some call => exact h
  | none =>
    have hpoint : c.point? t = none := point?_of_call hcall
    have hplace : Guarded.mutexPlace (c.point? t) = none := congrArg Guarded.mutexPlace hpoint
    refine
      { h with
        orderly := ?_, fits := fun u p hp => ?_, follows := fun u p before hp hguard => ?_
        copy := fun u copy hcopy => ?_ }
    · rw [point?_enter, depth_enter hcall rfl, Function.comp_update]
      exact h.orderly.enter hplace (Or.inl rfl)
    · rw [point?_enter] at hp
      by_cases hu : u = t
      · rw [hu, Function.update_self] at hp
        obtain rfl := Option.some.inj hp
        rfl
      · rw [Function.update_of_ne hu] at hp
        exact h.fits u p hp
    · by_cases hu : u = t
      · subst hu
        simp only [Function.update_self] at hp
        obtain ⟨rfl, rfl⟩ := Prod.mk.inj (Option.some.inj hp)
        have hheld := (h.sees (h.holder_of_guard hguard) hplace).2.1
        rw [depth, hpoint, if_pos hguard] at hheld
        exact ⟨hheld, rfl⟩
      · simp only [Function.update_of_ne hu] at hp
        exact h.follows u p before hp hguard
    · obtain ⟨hguard, hvalue, hne⟩ := h.copy u copy hcopy
      refine ⟨hguard, hvalue, ?_⟩
      rw [point?_enter]
      by_cases hu : u = t
      · rw [hu, Function.update_self]
        nofun
      · rwa [Function.update_of_ne hu]

theorem load (h : c.Kept initial holder) (t : Tid) : (c.handle (.load t)).Kept initial holder := by
  simp only [Borrowers.handle]
  split
  · rename_i hcall hguard
    refine { h with copy := fun u copy hcopy => ?_ }
    by_cases hu : u = t
    · subst hu
      simp only [Function.update_self] at hcopy
      refine ⟨hguard, (Option.some.inj hcopy).symm, ?_⟩
      simp only [point?, hcall]
      nofun
    · simp only [Function.update_of_ne hu] at hcopy
      exact h.copy u copy hcopy
  · exact h

theorem store (h : c.Kept initial holder) (t : Tid) (change : α → α) :
    (c.handle (.store t change)).Kept initial holder := by
  simp only [Borrowers.handle]
  split
  · rename_i copy hcall hcopy
    obtain ⟨hguard, rfl, -⟩ := h.copy t copy hcopy
    have hacquirer := h.acquirer t (h.holder_of_guard hguard)
    refine
      { h with
        follows := fun u p before hp hother => ?_, copy := fun u copy hcopy => ?_
        value_eq := congrArg change h.value_eq, acquirer := h.acquirer
        lawful := lawful_cons.2 ⟨hacquirer, h.lawful⟩ }
    · obtain rfl := h.guard_unique hguard hother
      rw [hcall] at hp
      cases hp
    · by_cases hu : u = t
      · simp only [hu, Function.update_self] at hcopy
        cases hcopy
      · simp only [Function.update_of_ne hu] at hcopy
        exact absurd (h.guard_unique hguard (h.copy u copy hcopy).1) hu
  · exact h

theorem beginDrop (h : c.Kept initial holder) (t : Tid) : (c.beginDrop t).Kept initial holder := by
  rw [Borrowers.beginDrop]
  split
  · rename_i hcall hguard
    have hpoint : c.point? t = none := point?_of_call hcall
    refine
      { h with
        orderly := ?_, fits := fun u p hp => ?_, follows := fun u p before hp hother => ?_
        copy := fun u copy hcopy => ?_ }
    · have hplace : Guarded.mutexPlace (some .endLoan) = (Guarded.mutexPlace ∘ c.point?) t := by
        rw [Function.comp_apply, hpoint]
        rfl
      rw [point?_enter, depth_enter hcall rfl, Function.comp_update, hplace,
        Function.update_eq_self]
      exact h.orderly
    · rw [point?_enter] at hp
      by_cases hu : u = t
      · rw [hu, Function.update_self] at hp
        obtain rfl := Option.some.inj hp
        exact hu ▸ hguard
      · rw [Function.update_of_ne hu] at hp
        exact h.fits u p hp
    · obtain rfl := h.guard_unique hguard hother
      simp only [Function.update_self] at hp
      obtain ⟨rfl, -⟩ := Prod.mk.inj (Option.some.inj hp)
      trivial
    · by_cases hu : u = t
      · simp only [hu, Function.update_self] at hcopy
        cases hcopy
      · simp only [Function.update_of_ne hu] at hcopy
        exact absurd (h.guard_unique hguard (h.copy u copy hcopy).1) hu
  · exact h

theorem handle (h : c.Kept initial holder) (event : Event α) :
    ∃ holder, (c.handle event).Kept initial holder := by
  cases event with
  | lock t => exact ⟨holder, h.lock t⟩
  | load t => exact ⟨holder, h.load t⟩
  | store t change => exact ⟨holder, h.store t change⟩
  | drop t | raise t => exact ⟨holder, h.beginDrop t⟩
  | step t =>
    simp only [Borrowers.handle]
    cases hcall : c.calls t with
    | none => exact ⟨holder, h⟩
    | some call =>
      cases hstep : Guarded.step t c.guarded call.1 with
      | none => exact ⟨holder, by simpa [hstep] using h⟩
      | some next => exact ⟨_, by simpa [hstep] using h.step hcall (Guarded.steps_of_step hstep)⟩

theorem run (h : c.Kept initial holder) (events : List (Event α)) :
    ∃ holder, (c.run events).Kept initial holder := by
  induction events generalizing c holder with
  | nil => exact ⟨holder, h⟩
  | cons event events ih =>
    obtain ⟨holder', hnext⟩ := h.handle event
    exact ih hnext

end Kept

/-! ## The loan is exclusive -/

/-- What holds of a guarded value at every moment. -/
structure Safe (initial : α) (c : Borrowers α) : Prop where
  lawful : Lawful LoanDeed.Law c.history
  /-- The deeds that touch the flag are all there are. -/
  untouched : ∀ t p, p.touchesLoan = false → ∀ lent,
    Guarded.step t { c.guarded with lent } p =
      (Guarded.step t c.guarded p).map fun next => ({ next.1 with lent }, next.2)
  /-- A thread that is about to borrow the value is refused just if it has a guard itself. -/
  refused_iff : ∀ t, c.point? t = some .borrow →
    ((∃ g p, Guarded.step t c.guarded .borrow = some (g, .goto p)) ↔ c.guards t = true)
  /-- The loan does not outlast the hold on the mutex. -/
  owned : c.guarded.lent = true → ∃ t, c.guards t = true ∧ c.guarded.mutex.owner = some t ∧
    c.guarded.mutex.token.isPending = false
  guard_unique : ∀ t u, c.guards t = true → c.guards u = true → t = u
  /-- Only a thread that waits for the token is blocked. -/
  unblocked : ∀ t p, c.point? t = some p → Guarded.step t c.guarded p = none →
    p = .locking .lockAwait ∧ c.guards t = false
  value_eq : c.guarded.value = LoanDeed.applied initial c.history

theorem Kept.safe (h : c.Kept initial holder) : c.Safe initial where
  lawful := h.lawful
  untouched t _ hp lent := Guarded.step_of_not_touchesLoan t c.guarded hp lent
  refused_iff t hp := by
    rw [← h.lent_iff_guard hp]
    cases hlent : c.guarded.lent <;> simp [Guarded.step, hlent]
  owned hlent := by
    obtain ⟨t, ht⟩ := h.lent_iff.1 hlent
    refine ⟨t, ht, h.owner_of_guard ht, ?_⟩
    by_contra hne
    have hnone := h.orderly.isPending_iff.1 (by simpa using hne)
    rw [h.holder_of_guard ht] at hnone
    cases hnone
  guard_unique _ _ ht hu := h.guard_unique hu ht
  unblocked t p hp hnone := by
    obtain rfl := Guarded.eq_lockAwait_of_blocked (h.fits t p hp) hnone
    refine ⟨rfl, ?_⟩
    by_contra hguard
    have hguard : c.guards t = true := by simpa using hguard
    exact h.sees (h.holder_of_guard hguard) (congrArg Guarded.mutexPlace hp)
  value_eq := h.value_eq

/-- However threads lock a guarded value, change it, panic and drop their guards, and in whatever order
their steps come, the loan is safe. -/
theorem loan_exclusive (initial : α) (events : List (Event α)) :
    ((start initial).run events).Safe initial := by
  obtain ⟨holder, h⟩ := (kept_start initial).run events
  exact h.safe

end Borrowers

end Osal
