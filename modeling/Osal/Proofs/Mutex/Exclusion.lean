import Mathlib.Data.Set.Card
import Osal.Proofs.Mutex.Places

/-!
# One thread at a time

Rivals are a mutex and any number of threads that lock and unlock it, one access to a shared word at a
time and in any order. The history tells who took the token and who put it back, and how calls ended,
the latest first. `mutual_exclusion`: there is always exactly one token, in the mutex or with one
thread, and only the thread that has it is inside of the mutex; the count is the number of its levels;
a call that is refused has changed nothing.
-/

namespace Osal

/-- What the history of a mutex tells. -/
inductive MutexDeed where
  /-- The thread took the token. -/
  | received (thread : Tid)
  /-- The thread put the token back, and whether there was a place for it. -/
  | returned (thread : Tid) (delivered : Bool)
  /-- A call ended; `changed` says whether one of its steps changed the mutex, and `left` is the mutex
  as it was then. -/
  | ended (thread : Tid) (outcome : Mutex.Outcome) (changed : Bool) (left : Mutex)

/-- What is to be said of a deed: the token finds its place, a lock is refused to the owner at full
depth only, an unlock to others only, and either changes nothing. -/
def MutexDeed.IsFine (maxDepth : Nat) : MutexDeed → Prop
  | .returned _ delivered => delivered = true
  | .ended t .overflow changed left => changed = false ∧ left.owner = some t ∧ left.held = maxDepth
  | .ended t .notHolder changed left => changed = false ∧ left.owner ≠ some t
  | .received _ | .ended _ .locked _ _ | .ended _ .unlocked _ _ => True

/-- A mutex and threads that lock and unlock it. -/
structure Rivals where
  mutex : Mutex
  /-- Where a thread stands inside of a call, and whether the call has changed the mutex so far. -/
  calls : Tid → Option (Mutex.Point × Bool) := fun _ => none
  history : List MutexDeed := []

namespace Rivals

/-- What can happen to a mutex. An event that is impossible at its moment changes nothing. -/
inductive Event where
  | lock (thread : Tid)
  | unlock (thread : Tid)
  /-- The thread takes a step, unless it is blocked. -/
  | step (thread : Tid)

def start (limit : Nat) : Rivals := { mutex := .withLimit limit }

def point? (c : Rivals) (t : Tid) : Option Mutex.Point := (c.calls t).map (·.1)

def begin (c : Rivals) (t : Tid) (p : Mutex.Point) : Rivals :=
  match c.calls t with
  | none => { c with calls := Function.update c.calls t (some (p, false)) }
  | some _ => c

/-- What a step from a point does with the token of a mutex. -/
def tokenNews (t : Tid) (m : Mutex) : Mutex.Point → List MutexDeed
  | .lockAwait => [.received t]
  | .unlockSignal => [.returned t (m.token.signal ()).1]
  | _ => []

def endNews (t : Tid) (changed : Bool) (left : Mutex) :
    Next Mutex.Point Mutex.Outcome → List MutexDeed
  | .goto _ => []
  | .done outcome => [.ended t outcome changed left]

/-- The mutex and the history once a thread came to where a step leads. -/
def advance (c : Rivals) (t : Tid) (p : Mutex.Point) (changed : Bool)
    (next : Mutex × Next Mutex.Point Mutex.Outcome) : Rivals :=
  let changed := changed || decide (next.1 ≠ c.mutex)
  { mutex := next.1
    calls := Function.update c.calls t ((Mutex.place next.2).map fun p => (p, changed))
    history := endNews t changed next.1 next.2 ++ (tokenNews t c.mutex p ++ c.history) }

def handle (c : Rivals) : Event → Rivals
  | .lock t => c.begin t .lockCheck
  | .unlock t => c.begin t .unlockCheck
  | .step t =>
    match c.calls t with
    | none => c
    | some (p, changed) =>
      match Mutex.step t c.mutex p with
      | none => c
      | some next => c.advance t p changed next

def run (c : Rivals) (events : List Event) : Rivals := events.foldl handle c

/-! ## What the history tells -/

/-- How often a thread took the token. -/
def receipts (t : Tid) (history : List MutexDeed) : Nat :=
  history.countP fun
    | .received u => u = t
    | _ => false

/-- How often a thread put the token back. -/
def returns (t : Tid) (history : List MutexDeed) : Nat :=
  history.countP fun
    | .returned u _ => u = t
    | _ => false

def endings (t : Tid) (outcome : Mutex.Outcome) (history : List MutexDeed) : Nat :=
  history.countP fun
    | .ended u o _ _ => u = t ∧ o = outcome
    | _ => false

/-- Whether a thread took the token and has not put it back. -/
def HasToken (c : Rivals) (t : Tid) : Prop := returns t c.history < receipts t c.history

/-- Whether a thread has locked the mutex more often than it has unlocked it. -/
def IsInside (c : Rivals) (t : Tid) : Prop :=
  endings t .unlocked c.history < endings t .locked c.history

variable {c : Rivals} {t u : Tid} {m m' : Mutex} {p q : Mutex.Point}
  {turn : Next Mutex.Point Mutex.Outcome} {o : Mutex.Outcome} {changed : Bool}
  {history : List MutexDeed}

theorem countP_news (counts : MutexDeed → Bool) :
    (endNews t changed m' turn ++ (tokenNews t m p ++ history)).countP counts =
      history.countP counts + (endNews t changed m' turn).countP counts +
        (tokenNews t m p).countP counts := by
  rw [List.countP_append, List.countP_append]
  omega

theorem receipts_news : receipts u (endNews t changed m' turn ++ (tokenNews t m p ++ history)) =
    receipts u history + if p = .lockAwait ∧ t = u then 1 else 0 := by
  have htoken : receipts u (tokenNews t m p) = if p = .lockAwait ∧ t = u then 1 else 0 := by
    cases p <;> simp [receipts, tokenNews]
  have hend : receipts u (endNews t changed m' turn) = 0 := by cases turn <;> rfl
  have hcount : receipts u (endNews t changed m' turn ++ (tokenNews t m p ++ history)) =
      receipts u history + receipts u (endNews t changed m' turn) + receipts u (tokenNews t m p) :=
    countP_news _
  rw [hcount, htoken, hend, Nat.add_zero]

theorem returns_news : returns u (endNews t changed m' turn ++ (tokenNews t m p ++ history)) =
    returns u history + if p = .unlockSignal ∧ t = u then 1 else 0 := by
  have htoken : returns u (tokenNews t m p) = if p = .unlockSignal ∧ t = u then 1 else 0 := by
    cases p <;> simp [returns, tokenNews]
  have hend : returns u (endNews t changed m' turn) = 0 := by cases turn <;> rfl
  have hcount : returns u (endNews t changed m' turn ++ (tokenNews t m p ++ history)) =
      returns u history + returns u (endNews t changed m' turn) + returns u (tokenNews t m p) :=
    countP_news _
  rw [hcount, htoken, hend, Nat.add_zero]

theorem endings_news : endings u o (endNews t changed m' turn ++ (tokenNews t m p ++ history)) =
    endings u o history + if turn = .done o ∧ t = u then 1 else 0 := by
  have htoken : endings u o (tokenNews t m p) = 0 := by cases p <;> rfl
  have hend : endings u o (endNews t changed m' turn) = if turn = .done o ∧ t = u then 1 else 0 := by
    cases turn <;> simp [endings, endNews, and_comm]
  have hcount : endings u o (endNews t changed m' turn ++ (tokenNews t m p ++ history)) =
      endings u o history + endings u o (endNews t changed m' turn) +
        endings u o (tokenNews t m p) := countP_news _
  rw [hcount, htoken, hend, Nat.add_zero]

/-! ## The invariant -/

/-- The mutex is as the threads say, and the history counts what they hold. -/
structure Ruled (limit : Nat) (c : Rivals) (holder : Option Tid) (depth : Tid → Nat) : Prop where
  orderly : c.mutex.Orderly holder c.point? depth
  maxDepth : c.mutex.maxDepth = max limit 1
  receipts_eq : ∀ t, receipts t c.history = returns t c.history + if holder = some t then 1 else 0
  endings_eq : ∀ t, endings t .locked c.history = endings t .unlocked c.history + depth t
  /-- A call that has changed the mutex was the first to lock it, or is past all checks. -/
  checked : ∀ t p, c.calls t = some (p, true) →
    ¬ Mutex.IsApart (some p) ∧ (p = .lockLoad → depth t = 0)
  told : ∀ deed ∈ c.history, deed.IsFine (max limit 1)

variable {limit : Nat} {holder : Option Tid} {depth : Tid → Nat}

theorem ruled_start (limit : Nat) : (start limit).Ruled limit none fun _ => 0 :=
  { orderly := Mutex.orderly_withLimit limit
    maxDepth := rfl
    receipts_eq := fun _ => rfl
    endings_eq := fun _ => rfl
    checked := fun _ _ h => by cases h
    told := fun _ h => by cases h }

theorem point?_update (calls : Tid → Option (Mutex.Point × Bool)) (t : Tid) (p : Option Mutex.Point)
    (changed : Bool) (m : Mutex) (history : List MutexDeed) :
    point? ⟨m, Function.update calls t (p.map fun p => (p, changed)), history⟩ =
      Function.update (point? ⟨m, calls, history⟩) t p := by
  funext u
  simp only [point?]
  by_cases hu : u = t
  · rw [hu, Function.update_self, Function.update_self]
    cases p <;> rfl
  · rw [Function.update_of_ne hu, Function.update_of_ne hu]
    rfl

theorem Ruled.begin (h : c.Ruled limit holder depth) (t : Tid) {p : Mutex.Point}
    (hp : p = .lockCheck ∨ p = .unlockCheck) : (c.begin t p).Ruled limit holder depth := by
  cases ht : c.calls t with
  | some inside =>
    simp only [Rivals.begin, ht]
    exact h
  | none =>
    simp only [Rivals.begin, ht]
    have hpoint : c.point? t = none := by rw [point?, ht]; rfl
    have hupdate : point? ⟨c.mutex, Function.update c.calls t (some (p, false)), c.history⟩ =
        Function.update c.point? t (some p) := point?_update c.calls t (some p) false ..
    refine { h with orderly := hupdate ▸ h.orderly.enter hpoint hp, checked := fun u q hq => ?_ }
    by_cases hu : u = t
    · subst hu
      simp at hq
    · exact h.checked u q (by simpa [hu] using hq)

/-- What the token does in a step is told, and it finds its place. -/
theorem Ruled.told_token (h : c.Ruled limit holder depth) (hp : c.point? t = some p)
    (hstep : Mutex.Steps t c.mutex p m' turn) :
    ∀ deed ∈ tokenNews t c.mutex p, deed.IsFine (max limit 1) := by
  intro deed hdeed
  cases hstep with
  | receive =>
    obtain rfl := List.mem_singleton.1 hdeed
    trivial
  | putBack =>
    obtain rfl := List.mem_singleton.1 hdeed
    obtain ⟨rfl, -⟩ := h.orderly.sees_of_place hp id
    exact congrArg Prod.fst (h.orderly.putBack hp).1
  | _ => cases hdeed

theorem Ruled.told_end (h : c.Ruled limit holder depth) (ht : c.calls t = some (p, changed))
    (hstep : Mutex.Steps t c.mutex p m' turn) :
    ∀ deed ∈ endNews t (changed || decide (m' ≠ c.mutex)) m' turn, deed.IsFine (max limit 1) := by
  have hp : c.point? t = some p := by rw [point?, ht]; rfl
  intro deed hdeed
  cases hstep with
  | full hfull =>
    obtain rfl := List.mem_singleton.1 hdeed
    obtain ⟨-, howner, hheld, hle⟩ := h.orderly.sees_of_place hp id
    refine ⟨?_, howner, h.maxDepth ▸ Nat.le_antisymm (hheld ▸ hle) hfull⟩
    -- A call that has taken the token holds nothing yet, so that there is room for one level.
    have hpos := h.orderly.positive
    cases changed with
    | false => simp
    | true =>
      have hzero := (h.checked t _ ht).2 rfl
      omega
  | notHolder howner =>
    obtain rfl := List.mem_singleton.1 hdeed
    refine ⟨?_, howner⟩
    cases changed with
    | false => simp
    | true => exact absurd trivial (h.checked t _ ht).1
  | gain | release | putBack =>
    obtain rfl := List.mem_singleton.1 hdeed
    trivial
  | _ => cases hdeed

/-- A call that goes on and has changed the mutex is past the checks, and holds nothing if it may
still be refused. -/
theorem Ruled.checked_next (h : c.Ruled limit holder depth) (ht : c.calls t = some (p, changed))
    (hstep : Mutex.Steps t c.mutex p m' (.goto q))
    (hchanged : changed = true ∨ m' ≠ c.mutex) :
    ¬ Mutex.IsApart (some q) ∧ (q = .lockLoad → depth t = 0) := by
  have hp : c.point? t = some p := by rw [point?, ht]; rfl
  cases hstep with
  | isOwner | notOwner | isHolder =>
    rcases hchanged with rfl | hne
    · exact absurd trivial (h.checked t _ ht).1
    · exact absurd rfl hne
  | own => exact ⟨id, fun _ => (h.orderly.sees_of_place hp id).2.2.2⟩
  | _ => exact ⟨id, fun hq => by cases hq⟩

theorem Ruled.step (h : c.Ruled limit holder depth) (ht : c.calls t = some (p, changed))
    (hstep : Mutex.Steps t c.mutex p m' turn) :
    (c.advance t p changed (m', turn)).Ruled limit (p.holder t holder)
      (Function.update depth t (Mutex.depthAfter (depth t) turn)) := by
  have hp : c.point? t = some p := by rw [point?, ht]; rfl
  refine
    { orderly := ?_, maxDepth := ?_, receipts_eq := fun u => ?_, endings_eq := fun u => ?_
      checked := fun u q hq => ?_, told := fun deed hdeed => ?_ }
  · rw [Rivals.advance, point?_update]
    exact Mutex.orderly_of_step h.orderly hp hstep
  · cases hstep <;> exact h.maxDepth
  · have hreceipts := h.receipts_eq u
    simp only [Rivals.advance, receipts_news, returns_news]
    cases hstep with
    | receive htoken =>
      obtain rfl := h.orderly.holder_eq_none htoken
      simpa [Mutex.Point.holder] using hreceipts
    | putBack =>
      obtain ⟨rfl, -⟩ := h.orderly.sees_of_place hp id
      simpa [Mutex.Point.holder] using hreceipts
    | _ =>
      change _ = _ + if holder = some u then 1 else 0
      simpa using hreceipts
  · have hendings := h.endings_eq u
    simp only [Rivals.advance, endings_news]
    by_cases hu : u = t
    · subst hu
      rw [Function.update_self]
      cases turn with
      | goto => simpa [Mutex.depthAfter] using hendings
      | done o =>
        cases o with
        | unlocked =>
          have hpos := Mutex.depth_pos_of_unlocked h.orderly hp hstep
          simp [Mutex.depthAfter]
          omega
        | locked =>
          simp [Mutex.depthAfter]
          omega
        | overflow | notHolder => simpa [Mutex.depthAfter] using hendings
    · rw [Function.update_of_ne hu]
      simpa [Ne.symm hu] using hendings
  · simp only [Rivals.advance] at hq
    by_cases hu : u = t
    · subst hu
      rw [Function.update_self] at hq ⊢
      cases turn with
      | done o => cases hq
      | goto r =>
        obtain ⟨rfl, hchanged⟩ := Prod.mk.inj (Option.some.inj hq)
        exact h.checked_next ht hstep (by simpa using hchanged)
    · rw [Function.update_of_ne hu] at hq ⊢
      exact h.checked u q hq
  · rcases List.mem_append.1 hdeed with hend | hdeed
    · exact h.told_end ht hstep deed hend
    · rcases List.mem_append.1 hdeed with htoken | hold
      · exact h.told_token hp hstep deed htoken
      · exact h.told deed hold

theorem Ruled.handle (h : c.Ruled limit holder depth) (event : Event) :
    ∃ holder depth, (c.handle event).Ruled limit holder depth := by
  cases event with
  | lock t => exact ⟨holder, depth, h.begin t (Or.inl rfl)⟩
  | unlock t => exact ⟨holder, depth, h.begin t (Or.inr rfl)⟩
  | step t =>
    simp only [Rivals.handle]
    cases ht : c.calls t with
    | none => exact ⟨holder, depth, h⟩
    | some call =>
      cases hstep : Mutex.step t c.mutex call.1 with
      | none => exact ⟨holder, depth, by simpa [hstep] using h⟩
      | some next => exact ⟨_, _, by simpa [hstep] using h.step ht (Mutex.steps_of_step hstep)⟩

theorem Ruled.run (h : c.Ruled limit holder depth) (events : List Event) :
    ∃ holder depth, (c.run events).Ruled limit holder depth := by
  induction events generalizing c holder depth with
  | nil => exact ⟨holder, depth, h⟩
  | cons event events ih =>
    obtain ⟨holder', depth', hnext⟩ := h.handle event
    exact ih hnext

/-! ## One token, one thread inside -/

/-- What holds of a mutex at every moment. -/
structure Exclusive (limit : Nat) (c : Rivals) : Prop where
  one_token : (if c.mutex.token.isPending then 1 else 0) + {t | c.HasToken t}.encard = 1
  receipts_le : ∀ t, receipts t c.history ≤ returns t c.history + 1
  one_inside : ∀ t u, c.IsInside t → c.IsInside u → t = u
  hasToken : ∀ t, c.IsInside t → c.HasToken t
  /-- While the owner is outside of any call, the count is the number of its levels. -/
  held_eq : ∀ t, c.mutex.owner = some t → c.calls t = none →
    endings t .locked c.history = endings t .unlocked c.history + c.mutex.held ∧
      1 ≤ c.mutex.held ∧ c.mutex.held ≤ max limit 1
  delivered : ∀ t delivered, .returned t delivered ∈ c.history → delivered = true
  /-- The level that a release takes off is there. -/
  no_underflow : ∀ t, c.point? t = some .unlockLoad → 1 ≤ c.mutex.held
  overflow : ∀ t changed left, .ended t .overflow changed left ∈ c.history →
    changed = false ∧ left.owner = some t ∧ left.held = max limit 1
  notHolder : ∀ t changed left, .ended t .notHolder changed left ∈ c.history →
    changed = false ∧ left.owner ≠ some t

theorem Ruled.hasToken_iff (h : c.Ruled limit holder depth) : c.HasToken t ↔ holder = some t := by
  have hreceipts := h.receipts_eq t
  rw [HasToken, hreceipts]
  split <;> simp_all

theorem Ruled.holder_of_isInside (h : c.Ruled limit holder depth) (ht : c.IsInside t) :
    holder = some t := by
  by_contra hne
  have hzero := (h.orderly.apart t hne).1
  have hendings := h.endings_eq t
  have hlt : endings t .unlocked c.history < endings t .locked c.history := ht
  omega

theorem Ruled.one_token (h : c.Ruled limit holder depth) :
    (if c.mutex.token.isPending then 1 else 0) + {t | c.HasToken t}.encard = 1 := by
  simp only [h.hasToken_iff]
  cases holder with
  | none =>
    rw [if_pos (h.orderly.isPending_iff.2 rfl)]
    simp
  | some t =>
    rw [if_neg fun hpending => by cases h.orderly.isPending_iff.1 hpending]
    simp [Set.encard_singleton]

theorem Ruled.exclusive (h : c.Ruled limit holder depth) : c.Exclusive limit where
  one_token := h.one_token
  receipts_le t := by
    have hreceipts := h.receipts_eq t
    split at hreceipts <;> omega
  one_inside t u ht hu := by
    have hholder := (h.holder_of_isInside ht).symm.trans (h.holder_of_isInside hu)
    exact Option.some.inj hholder
  hasToken t ht := h.hasToken_iff.2 (h.holder_of_isInside ht)
  held_eq t howner ht := by
    obtain rfl := h.orderly.holder_of_owner howner
    have hsees := h.orderly.sees t rfl
    rw [point?, ht] at hsees
    obtain ⟨-, hheld, hpos, hle⟩ := hsees
    rw [hheld, ← h.maxDepth]
    exact ⟨h.endings_eq t, hpos, hle⟩
  delivered t delivered hdeed := h.told _ hdeed
  no_underflow t ht := by
    obtain ⟨-, -, hheld, hpos, -⟩ := h.orderly.sees_of_place ht id
    exact hheld ▸ hpos
  overflow t changed left hdeed := h.told _ hdeed
  notHolder t changed left hdeed := h.told _ hdeed

/-- However threads lock and unlock a mutex, and in whatever order their steps come, there is one
token, at most one thread is inside of the mutex, and refused calls change nothing. -/
theorem mutual_exclusion (limit : Nat) (events : List Event) :
    ((start limit).run events).Exclusive limit := by
  obtain ⟨holder, depth, h⟩ := (ruled_start limit).run events
  exact h.exclusive

end Rivals

end Osal
