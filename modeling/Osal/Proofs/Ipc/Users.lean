import Mathlib.Logic.Function.Basic
import Osal.Ipc.Buffer
import Osal.Proofs.Histories
import Osal.Proofs.Semaphore.Places

/-!
# The users of a shared buffer

Users are a shared buffer and any number of threads that acquire it with any timeout, change its bytes
through their guards and drop these, one step at a time and in any order. A thread may try to acquire the
buffer again while it has a guard. A change reads the bytes in one step and stores what it makes of them
in another, so that nothing is said beforehand about who may come in between; the clock answers as it
likes, and wakes of any kind come at any time.

`BufferDeed.Law` is what is to be said of all that the threads did.
-/

namespace Osal

/-- The value is not lent, and nobody has the lock. -/
structure Guarded.IsFree {α : Type} (g : Guarded α) : Prop where
  lent : g.lent = false
  owner : g.mutex.owner = none
  held : g.mutex.held = 0
  token : g.mutex.token.isPending = true

/-- A change of the bytes through a guard. -/
inductive BufferChange where
  | write (bytes : List UInt8)
  | poke (i : Nat) (byte : UInt8)

namespace BufferChange

def apply (b : SharedBuffer) : BufferChange → Except Stop (Nat × SharedBuffer)
  | .write bytes =>
    match b.write bytes with
    | .ok written => .ok written
    | .error e => .error (.refused e)
  | .poke i byte =>
    match b.poke i byte with
    | .ok b => .ok (1, b)
    | .error v => .error (.broken v)

/-- What a change answers and leaves of some bytes: it replaces as many as it stores, or leaves all as
they were if it does not fit. -/
def Law (before : List UInt8) : BufferChange → Except Stop Nat → List UInt8 → Prop
  | .write bytes, answer, after =>
    if bytes.length ≤ before.length then
      answer = .ok bytes.length ∧ after.take bytes.length = bytes ∧
        after.drop bytes.length = before.drop bytes.length
    else answer = .error (.refused (.bufferTooSmall bytes.length before.length)) ∧ after = before
  | .poke i byte, answer, after =>
    if i < before.length then answer = .ok 1 ∧ after = before.set i byte
    else answer = .error (.broken .indexOutOfBounds) ∧ after = before

end BufferChange

/-- What the history of a shared buffer tells. -/
inductive BufferDeed where
  /-- The thread got a guard, through which it saw these bytes. -/
  | opened (thread : Tid) (bytes : List UInt8)
  | changed (thread : Tid) (change : BufferChange) (answer : Except Stop Nat) (bytes : List UInt8)
  /-- The guard of the thread gave up the bytes. -/
  | closed (thread : Tid) (bytes : List UInt8)
  /-- The drop of a guard is over. -/
  | dropped (thread : Tid) (left : SharedBuffer)
  /-- An acquisition ended without a guard. -/
  | refused (thread : Tid) (stop : Stop)

namespace BufferDeed

/-- The thread whose guard has the bytes. -/
def opener : List BufferDeed → Option Tid
  | [] => none
  | .opened t _ :: _ => some t
  | .closed .. :: _ => none
  | _ :: past => opener past

/-- The bytes that the last guard left. -/
def left (initial : List UInt8) : List BufferDeed → List UInt8
  | [] => initial
  | .closed _ bytes :: _ => bytes
  | _ :: past => left initial past

/-- The bytes as they are while guards come, change them and go. -/
def content (initial : List UInt8) : List BufferDeed → List UInt8
  | [] => initial
  | .opened _ bytes :: _ | .changed _ _ _ bytes :: _ | .closed _ bytes :: _ => bytes
  | _ :: past => content initial past

/-- What is to be said of a deed, given what came before. -/
def Law (initial : List UInt8) (past : List BufferDeed) : BufferDeed → Prop
  | .opened _ bytes => opener past = none ∧ bytes = left initial past
  | .changed t change answer bytes =>
    opener past = some t ∧ change.Law (content initial past) answer bytes
  | .closed t bytes => opener past = some t ∧ bytes = content initial past
  | .dropped _ left => left.data.IsFree
  | .refused _ stop => ∀ v, stop = .broken v → ∃ waiters, v = .waitQueueOverflow waiters

end BufferDeed

/-- Where a thread stands inside of a call. -/
inductive BufferCall where
  | acquiring (timeoutMs : Int32) (point : SharedBuffer.AcquirePoint)
  /-- Has read the bytes in order to change them. -/
  | changing (change : BufferChange) (copy : List UInt8)
  | dropping (point : SharedBuffer.DropPoint)

/-- A shared buffer and the threads that use it. -/
structure BufferUsers where
  buffer : SharedBuffer
  wakes : Wakes
  /-- The notification that a thread waits on. -/
  wait : Tid → NotificationId
  calls : Tid → Option BufferCall := fun _ => none
  /-- Whether a thread has a guard that has the bytes. -/
  guards : Tid → Bool := fun _ => false
  history : List BufferDeed := []

namespace SharedBuffer

/-- Whether the step of a drop from a point ends the loan of the bytes. -/
def DropPoint.endsLoan : DropPoint → Bool
  | .unlocking .endLoan => true
  | _ => false

end SharedBuffer

namespace BufferUsers

/-- What can happen to a shared buffer. An event that is impossible at its moment changes nothing. -/
inductive Event where
  /-- The thread tries to acquire the buffer, whether or not it has a guard. -/
  | acquire (thread : Tid) (timeoutMs : Int32)
  /-- The thread starts to change the bytes through its guard. -/
  | change (thread : Tid) (change : BufferChange)
  /-- The thread starts to drop its guard, also because of a panic. -/
  | drop (thread : Tid)
  /-- The thread takes a step of the call that it is inside of, unless it is blocked. -/
  | step (thread : Tid)
  /-- The clock answers the request that the thread awaits. -/
  | answer (thread : Tid) (result : CallResult NotificationId)
  /-- A timer or anyone else signals a notification. -/
  | signal (id : NotificationId) (wake : Wakeup)

/-- A free buffer of zeros, and threads that do not use it yet. -/
def start (size maxWaiters : Nat) (clock : Option ClockClient) (wakes : Wakes)
    (wait : Tid → NotificationId) : BufferUsers :=
  { buffer := .ofSize size maxWaiters clock, wakes, wait }

/-- The users after something that one thread did: where that stands now, whether it has a guard, and
what is told of it. -/
def move (c : BufferUsers) (t : Tid) (call : Option BufferCall) (had : Bool)
    (next : SharedBuffer × Wakes) (news : List BufferDeed) : BufferUsers :=
  { c with
    buffer := next.1, wakes := next.2, calls := Function.update c.calls t call
    guards := Function.update c.guards t had, history := news ++ c.history }

def advance (c : BufferUsers) (t : Tid) (timeoutMs : Int32)
    (next : (SharedBuffer × Wakes) × Next SharedBuffer.AcquirePoint (Except Stop Unit)) :
    BufferUsers :=
  match next.2 with
  | .goto p => c.move t (some (.acquiring timeoutMs p)) (c.guards t) next.1 []
  | .done (.ok ()) => c.move t none true next.1 [.opened t next.1.1.bytes]
  | .done (.error stop) => c.move t none (c.guards t) next.1 [.refused t stop]

def retire (c : BufferUsers) (t : Tid) (p : SharedBuffer.DropPoint)
    (next : (SharedBuffer × Wakes) × Next SharedBuffer.DropPoint Unit) : BufferUsers :=
  let had := c.guards t && !p.endsLoan
  let closed := if p.endsLoan then [.closed t c.buffer.bytes] else []
  match next.2 with
  | .goto p => c.move t (some (.dropping p)) had next.1 closed
  | .done () => c.move t none had next.1 (.dropped t next.1.1 :: closed)

def store (c : BufferUsers) (t : Tid) (change : BufferChange) (copy : List UInt8) : BufferUsers :=
  match change.apply { c.buffer with data := c.buffer.data.write fun _ => copy } with
  | .ok (n, buffer) =>
    c.move t none (c.guards t) (buffer, c.wakes) [.changed t change (.ok n) buffer.bytes]
  | .error stop =>
    c.move t none (c.guards t) (c.buffer, c.wakes) [.changed t change (.error stop) c.buffer.bytes]

def take (c : BufferUsers) (t : Tid) (timeoutMs : Int32) : Take := { timeoutMs, wait := c.wait t }

def handle (c : BufferUsers) : Event → BufferUsers
  | .acquire t timeoutMs =>
    match c.calls t with
    | none =>
      c.move t (some (.acquiring timeoutMs (.taking .entering))) (c.guards t) (c.buffer, c.wakes) []
    | some _ => c
  | .change t change =>
    match c.calls t, c.guards t with
    | none, true =>
      c.move t (some (.changing change c.buffer.bytes)) true (c.buffer, c.wakes) []
    | _, _ => c
  | .drop t =>
    match c.calls t, c.guards t with
    | none, true => c.move t (some (.dropping .giving)) true (c.buffer, c.wakes) []
    | _, _ => c
  | .step t =>
    match c.calls t with
    | none => c
    | some (.acquiring timeoutMs p) =>
      match SharedBuffer.acquireStep t (c.take t timeoutMs) (c.buffer, c.wakes) p with
      | none => c
      | some next => c.advance t timeoutMs next
    | some (.changing change copy) => c.store t change copy
    | some (.dropping p) =>
      match SharedBuffer.dropStep t (c.buffer, c.wakes) p with
      | none => c
      | some next => c.retire t p next
  | .answer t result =>
    match c.calls t with
    | some (.acquiring timeoutMs (.taking p)) =>
      if p.isInside then
        c.advance t timeoutMs
          (SharedBuffer.acquireAnswered (c.take t timeoutMs) c.buffer c.wakes result (.taking p))
      else c
    | _ => c
  | .signal id wake => { c with wakes := (c.wakes.signal id wake).2 }

def run (c : BufferUsers) (events : List Event) : BufferUsers := events.foldl handle c

end BufferUsers

end Osal
