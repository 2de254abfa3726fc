import Osal.Message

/-!
# Endpoints

An endpoint is a queue of calls. A client sends through a badged capability and blocks until its
call is answered; a server receives calls in the order in which they were sent, sees the badge of
the capability that was used, and answers each at most once.

A call cannot be sent once neither the endpoint nor a server is left, and calls still queued at that
moment are abandoned. Nothing more can be received once the queue is empty and neither the endpoint
nor a capability is left.
-/

namespace Osal

/-- A call on its way to a server, or received by one. -/
structure Call (κ : Type) where
  /-- The number of the call, in the order of sending. -/
  caller : Nat
  badge : Badge
  message : Message κ
  deriving DecidableEq

/-- What a caller gets back. -/
abbrev CallResult (κ : Type) := Except PlatformError (Message κ)

/-- An endpoint with the capabilities, servers and calls that belong to it. -/
structure Endpoint (κ : Type) where
  /-- Calls sent and not yet received. -/
  queue : List (Call κ) := []
  /-- The badges of the capabilities made so far; a dropped capability has none. -/
  caps : Array (Option Badge) := #[]
  /-- The calls received so far; one that was answered or dropped is gone. -/
  received : Array (Option (Call κ)) := #[]
  /-- What each caller got back so far. -/
  results : Array (Option (CallResult κ)) := #[]
  /-- Whether the endpoint itself still exists. -/
  live : Bool := true
  servers : Nat := 1

namespace Endpoint

variable {κ : Type}

/-- Whether a call could still be received. -/
def hasReceiver (e : Endpoint κ) : Bool := e.live || 0 < e.servers

/-- Whether a call could still be sent. -/
def hasSender (e : Endpoint κ) : Bool := e.live || e.caps.any Option.isSome

def badge? (e : Endpoint κ) (cap : Nat) : Option Badge := (e.caps[cap]?).join

def mint (e : Endpoint κ) (badge : Badge) : Nat × Endpoint κ :=
  (e.caps.size, { e with caps := e.caps.push (some badge) })

/-- The endpoint after a caller got its result. -/
def settle (e : Endpoint κ) (caller : Nat) (result : CallResult κ) : Endpoint κ :=
  { e with results := e.results.setIfInBounds caller (some result) }

def result? (e : Endpoint κ) (caller : Nat) : Option (CallResult κ) := (e.results[caller]?).join

/-- Send a message with a badge; the answer is the number of the call. -/
def send (e : Endpoint κ) (badge : Badge) (message : Message κ) : Nat × Endpoint κ :=
  let caller := e.results.size
  (caller,
    if e.hasReceiver then
      { e with queue := e.queue ++ [{ caller, badge, message }], results := e.results.push none }
    else { e with results := e.results.push (some (.error .endpointClosed)) })

/-- Receive the next call; the answer is its number among the received ones. A server is blocked,
and nothing is answered, while the queue is empty and a call could still be sent. -/
def receive (e : Endpoint κ) : Option (Except PlatformError Nat × Endpoint κ) :=
  match e.queue with
  | call :: queue =>
    some (.ok e.received.size, { e with queue, received := e.received.push (some call) })
  | [] => if e.hasSender then none else some (.error .endpointClosed, e)

/-- A received call that was neither answered nor dropped. -/
def call? (e : Endpoint κ) (k : Nat) : Option (Call κ) := (e.received[k]?).join

/-- Move the attached capability out of a received call. -/
def takeCap (e : Endpoint κ) (k : Nat) : Option κ × Endpoint κ :=
  match e.call? k with
  | some call =>
    let (cap, message) := call.message.takeCap
    (cap, { e with received := e.received.setIfInBounds k (some { call with message }) })
  | none => (none, e)

/-- End a received call with what its caller gets. -/
def finish (e : Endpoint κ) (k : Nat) (result : CallResult κ) : Endpoint κ :=
  match e.call? k with
  | some call =>
    { e with received := e.received.setIfInBounds k none }.settle call.caller result
  | none => e

/-- Answer a received call. The caller waits for it, so that it is always delivered. -/
def reply (e : Endpoint κ) (k : Nat) (message : Message κ) : Endpoint κ := e.finish k (.ok message)

/-- Drop a received call unanswered. -/
def dropCall (e : Endpoint κ) (k : Nat) : Endpoint κ := e.finish k (.error .callerAbandoned)

def dropCap (e : Endpoint κ) (cap : Nat) : Endpoint κ :=
  { e with caps := e.caps.setIfInBounds cap none }

/-- Once nothing can be received any more, the callers still queued are abandoned. -/
def abandonQueue (e : Endpoint κ) : Endpoint κ :=
  if e.hasReceiver then e
  else
    e.queue.foldl (fun e call => e.settle call.caller (.error .callerAbandoned))
      { e with queue := [] }

/-- Drop the endpoint itself; its capabilities and servers go on. -/
def dropEndpoint (e : Endpoint κ) : Endpoint κ := { e with live := false }.abandonQueue

def dropServer (e : Endpoint κ) : Endpoint κ := { e with servers := e.servers - 1 }.abandonQueue

end Endpoint

end Osal
