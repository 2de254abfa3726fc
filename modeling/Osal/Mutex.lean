import Osal.Notification
import Osal.Program
import Osal.Tid

/-!
# The recursive mutex

A mutex is a token in a one-place notification, armed when the mutex is made. A thread that does not
own the mutex waits for the token and records itself as owner; the owner only counts deeper. The
last release forgets the owner and puts the token back.

`Mutex.step` has one point for each access to the shared words, so that it describes every
interleaving of several threads; `Mutex.lock` and `Mutex.unlock` let one thread run.
-/

namespace Osal

/-- A lock that its owner may take again. -/
structure Mutex where
  owner : Option Tid := none
  /-- How often the owner holds the mutex. -/
  held : Nat := 0
  /-- Holds the token while nobody owns the mutex. -/
  token : Notification Unit := { pending := some () }
  maxDepth : Nat
  deriving DecidableEq

namespace Mutex

/-- The greatest recursion limit there is. -/
def unlimited : Nat := 4294967295

/-- A free mutex that can be held at most `limit` times, and at least once. -/
def withLimit (limit : Nat) : Mutex := { maxDepth := max limit 1 }

/-- A free mutex without a limit of its own. -/
def new : Mutex := withLimit unlimited

/-- Where a thread stands inside `lock` or `unlock`. -/
inductive Point where
  /-- About to compare the owner with itself. -/
  | lockCheck
  /-- Waiting for the token. -/
  | lockAwait
  /-- Has the token, and is about to record itself as owner. -/
  | lockOwn
  | lockLoad
  | lockStore (held : Nat)
  /-- About to compare the owner with itself. -/
  | unlockCheck
  | unlockLoad
  | unlockStore (held : Nat)
  /-- Has released the last level, and is about to forget the owner. -/
  | unlockClear
  /-- About to put the token back. -/
  | unlockSignal
  deriving DecidableEq

/-- How `lock` and `unlock` end. -/
inductive Outcome where
  | locked
  /-- The owner already holds the mutex as often as it can. -/
  | overflow
  | unlocked
  /-- The thread that released the mutex does not own it. -/
  | notHolder
  deriving DecidableEq

/-- One access to the shared words by the thread `me`. -/
def step (me : Tid) : Program Mutex Point Outcome := fun m p =>
  match p with
  | .lockCheck => some (m, .goto (if m.owner = some me then .lockLoad else .lockAwait))
  | .lockAwait =>
    match m.token.poll with
    | (some (), token) => some ({ m with token }, .goto .lockOwn)
    | (none, _) => none
  | .lockOwn => some ({ m with owner := some me }, .goto .lockLoad)
  | .lockLoad =>
    if m.maxDepth ≤ m.held then some (m, .done .overflow)
    else some (m, .goto (.lockStore (m.held + 1)))
  | .lockStore held => some ({ m with held }, .done .locked)
  | .unlockCheck =>
    if m.owner = some me then some (m, .goto .unlockLoad) else some (m, .done .notHolder)
  | .unlockLoad => some (m, .goto (.unlockStore (m.held - 1)))
  | .unlockStore held =>
    some ({ m with held }, if held = 0 then .goto .unlockClear else .done .unlocked)
  | .unlockClear => some ({ m with owner := none }, .goto .unlockSignal)
  | .unlockSignal => some ({ m with token := (m.token.signal ()).2 }, .done .unlocked)

def maxSteps : Nat := 6

/-- Let a thread go on from a point until it ends or has to wait. -/
def resume (me : Tid) (m : Mutex) (p : Point) : Mutex × Progress Point Outcome :=
  Program.run (step me) maxSteps m p

/-- Let a thread take the mutex, or get as far as waiting for the token. -/
def lock (me : Tid) (m : Mutex) : Mutex × Progress Point Outcome := resume me m .lockCheck

/-- Let a thread release the mutex. -/
def unlock (me : Tid) (m : Mutex) : Mutex × Progress Point Outcome := resume me m .unlockCheck

def debugText (tidText : Tid → String) (m : Mutex) : String :=
  let owner := match m.owner with
    | some t => s!"Some(Tid({tidText t}))"
    | none => "None"
  s!"Mutex \x7b owner: {owner}, held: {m.held} \x7d"

/-! ## Guards -/

/-- Take the mutex a number of times and release it as often. The answer lists the depth after each
take and each release; a take that is refused is listed as nothing and ends the descent. -/
def nest (me : Tid) : Nat → Mutex → List (Option Nat) × Mutex
  | 0, m => ([], m)
  | n + 1, m =>
    match m.lock me with
    | (m, .finished .locked) =>
      let (inner, next) := nest me n m
      let next := (next.unlock me).1
      (some m.held :: inner ++ [some next.held], next)
    | (m, _) => ([none], m)

end Mutex

/-! ## Several threads and one mutex -/

/-- A mutex and the threads that wait for it, in the order in which they came. -/
structure MutexQueue where
  mutex : Mutex
  waiting : List (Tid × Mutex.Point) := []

namespace MutexQueue

/-- Let every waiting thread go on. The answer lists the threads that got the mutex. -/
def wake (q : MutexQueue) : List Tid × MutexQueue :=
  q.waiting.foldl (fun (acc : List Tid × MutexQueue) waiter =>
    match acc.2.mutex.resume waiter.1 waiter.2 with
    | (mutex, .finished _) => (acc.1 ++ [waiter.1], { acc.2 with mutex })
    | (mutex, .stalled p) =>
      (acc.1, { mutex, waiting := acc.2.waiting ++ [(waiter.1, p)] }))
    ([], { q with waiting := [] })

/-- Let a thread take the mutex; nothing is answered while it has to wait. -/
def lock (q : MutexQueue) (me : Tid) : Option Mutex.Outcome × MutexQueue :=
  match q.mutex.lock me with
  | (mutex, .finished o) => (some o, { q with mutex })
  | (mutex, .stalled p) => (none, { mutex, waiting := q.waiting ++ [(me, p)] })

/-- Change the mutex, and then let the waiting threads go on. -/
def andWake {α : Type} (q : MutexQueue) (change : α × Mutex) : α × List Tid × MutexQueue :=
  (change.1, { q with mutex := change.2 }.wake)

def unlock (q : MutexQueue) (me : Tid) : Option Mutex.Outcome × List Tid × MutexQueue :=
  match q.mutex.unlock me with
  | (mutex, .finished o) => q.andWake (some o, mutex)
  | (mutex, .stalled _) => q.andWake (none, mutex)

def nest (q : MutexQueue) (me : Tid) (n : Nat) : List (Option Nat) × List Tid × MutexQueue :=
  q.andWake (q.mutex.nest me n)

end MutexQueue

end Osal
