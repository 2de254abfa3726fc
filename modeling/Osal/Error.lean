import Osal.TimeoutId

/-!
# Errors and broken contracts

A refused operation answers with a cause: a `PlatformError` in the capability layer, an `Error` in
the services above it. A `Violation` is a contract that its caller broke; it stops the calling
thread. Each type has one function that gives its wording, and a refusal also a name for its cause.
-/

namespace Osal

/-- Why an operation of the capability layer was refused. -/
inductive PlatformError where
  | endpointClosed
  | callerAbandoned
  | notificationClosed
  | invalidCapability (cptr : CapPtr)
  | insufficientRights (cptr : CapPtr)
  | outOfSlots (capacity : Nat)
  | messageTooLong (length : Nat)
  | timerNotArmed
  | timerStopped
  | invalidPeriod
  deriving DecidableEq

def PlatformError.message : PlatformError → String
  | .endpointClosed => "Endpoint closed"
  | .callerAbandoned => "Caller abandoned the call before the reply"
  | .notificationClosed => "Notification closed"
  | .invalidCapability cptr => s!"Invalid capability: {cptr}"
  | .insufficientRights cptr => s!"Insufficient rights on capability {cptr}"
  | .outOfSlots capacity => s!"Out of capability slots (capacity: {capacity})"
  | .messageTooLong length => s!"Message too long: {length} words"
  | .timerNotArmed => "Timer not armed"
  | .timerStopped => "Timer stopped"
  | .invalidPeriod => "Invalid timer period"

def PlatformError.name : PlatformError → String
  | .endpointClosed => "EndpointClosed"
  | .callerAbandoned => "CallerAbandoned"
  | .notificationClosed => "NotificationClosed"
  | .invalidCapability _ => "InvalidCapability"
  | .insufficientRights _ => "InsufficientRights"
  | .outOfSlots _ => "OutOfSlots"
  | .messageTooLong _ => "MessageTooLong"
  | .timerNotArmed => "TimerNotArmed"
  | .timerStopped => "TimerStopped"
  | .invalidPeriod => "InvalidPeriod"

/-- Why an operation of a service was refused. -/
inductive Error where
  | exhausted (capacity : Nat)
  | notFound
  | recursionOverflow
  | wouldBlock
  | timedOut
  | schedulerFull
  | timeoutNotFound (id : TimeoutId)
  | clockUnavailable
  | clockAlreadyStarted
  | protocol (reason : String)
  | config (reason : String)
  | spawnFailed (name reason : String)
  | threadPanicked (name : String)
  | bufferTooSmall (needed capacity : Nat)
  | platform (cause : PlatformError)
  deriving DecidableEq

def Error.message : Error → String
  | .exhausted capacity => s!"Pool exhausted (capacity: {capacity})"
  | .notFound => "Element not found in pool"
  | .recursionOverflow => "Maximum mutex recursion depth reached"
  | .wouldBlock => "Semaphore unavailable"
  | .timedOut => "Operation timed out"
  | .schedulerFull => "Timeout schedule is full"
  | .timeoutNotFound id => s!"Timeout {id.text} not found"
  | .clockUnavailable => "System clock unavailable"
  | .clockAlreadyStarted => "System clock already started"
  | .protocol reason => "Protocol error: " ++ reason
  | .config reason => "Configuration error: " ++ reason
  | .spawnFailed name reason => s!"Failed to spawn thread {name}: {reason}"
  | .threadPanicked name => s!"Thread {name} panicked"
  | .bufferTooSmall needed capacity => s!"Buffer too small: {needed} > {capacity} bytes"
  | .platform cause => "Platform error: " ++ cause.message

def Error.name : Error → String
  | .exhausted _ => "Exhausted"
  | .notFound => "NotFound"
  | .recursionOverflow => "RecursionOverflow"
  | .wouldBlock => "WouldBlock"
  | .timedOut => "TimedOut"
  | .schedulerFull => "SchedulerFull"
  | .timeoutNotFound _ => "TimeoutNotFound"
  | .clockUnavailable => "ClockUnavailable"
  | .clockAlreadyStarted => "ClockAlreadyStarted"
  | .protocol _ => "Protocol"
  | .config _ => "Config"
  | .spawnFailed .. => "SpawnFailed"
  | .threadPanicked _ => "ThreadPanicked"
  | .bufferTooSmall .. => "BufferTooSmall"
  | .platform _ => "Platform"

/-- A contract that the caller of an operation broke. -/
inductive Violation where
  | zeroCapacity
  | staleHandle (index : Nat) (generation : UInt32)
  | indexOutOfBounds
  | unlinkFromEmpty
  | notHolder
  | alreadyBorrowed
  | waitQueueOverflow (waiters : Nat)
  | raised (text : String)
  deriving DecidableEq

def Violation.message : Violation → String
  | .zeroCapacity => "pool capacity must be non-zero"
  | .staleHandle index generation =>
    s!"use of freed pool handle Handle \x7b index: {index}, generation: {generation} \x7d"
  | .indexOutOfBounds => "index out of bounds"
  | .unlinkFromEmpty => "unlink from empty list"
  | .notHolder => "mutex unlocked by <tid> which does not hold it"
  | .alreadyBorrowed => "already borrowed"
  | .waitQueueOverflow waiters => s!"semaphore wait queue overflow ({waiters} waiters)"
  | .raised text => text

/-- Why an operation of a thread ended without a result. -/
inductive Stop where
  | refused (cause : Error)
  | broken (contract : Violation)
  deriving DecidableEq

end Osal
