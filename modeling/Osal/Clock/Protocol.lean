import Osal.Message

/-!
# The clock protocol

A request is a message whose label is its opcode; a reply is a message whose label is its status.
`Request.ofMessage` and `Reply.ofMessage` check whatever arrives, in a fixed order, and give the
first cause of refusal. A refused message keeps its capability.
-/

namespace Osal

/-- Why a message is not a request or a reply. -/
inductive ProtocolFault where
  | unknownStatus (word : Word)
  | unknownOpcode (word : Word)
  | missingArgument (label : Word) (index length : Nat)
  | argumentOutOfRange (index : Nat) (word : Word)
  | periodicFlag (word : Word)
  | zeroPeriod
  | missingWake
  | invalidTimeoutId (word : Word)
  | unexpectedReply (text : String)
  deriving DecidableEq

def ProtocolFault.message : ProtocolFault → String
  | .unknownStatus word => s!"unknown status {word}"
  | .unknownOpcode word => s!"unknown opcode {word}"
  | .missingArgument label index length =>
    s!"opcode {label} expects argument {index}, message has {length}"
  | .argumentOutOfRange index word => s!"argument {index} out of range: {word}"
  | .periodicFlag word => s!"periodic flag must be 0 or 1, got {word}"
  | .zeroPeriod => "periodic timeout with zero period"
  | .missingWake => "SET_TIMEOUT without wake capability"
  | .invalidTimeoutId word => s!"invalid timeout id {word}"
  | .unexpectedReply text => "unexpected sysclock reply " ++ text

/-- The refusal that a protocol fault leads to. -/
def ProtocolFault.toError (f : ProtocolFault) : Error := .protocol f.message

/-- The timeout a word names. -/
def TimeoutId.ofWord (w : Word) : Except ProtocolFault TimeoutId :=
  match TimeoutId.ofWord? w with
  | some id => .ok id
  | none => .error (.invalidTimeoutId w)

/-! ## Arguments -/

namespace Message

variable {κ : Type}

def arg (m : Message κ) (i : Nat) : Except ProtocolFault Word :=
  match m.word? i with
  | some w => .ok w
  | none => .error (.missingArgument m.label i m.length)

/-- The argument at a position, which has to be a tick. -/
def tickArg (m : Message κ) (i : Nat) : Except ProtocolFault UInt32 := do
  let w ← m.arg i
  if w.toUInt32.toUInt64 = w then .ok w.toUInt32 else .error (.argumentOutOfRange i w)

/-- The argument at a position, which has to be a flag. -/
def flagArg (m : Message κ) (i : Nat) : Except ProtocolFault Bool := do
  let w ← m.arg i
  if w = 0 then .ok false else if w = 1 then .ok true else .error (.periodicFlag w)

end Message

/-! ## Requests -/

/-- The operation a request asks for. -/
inductive Opcode where
  | getTime
  | setTimeout
  | cancelTimeout
  deriving DecidableEq

def Opcode.toWord : Opcode → Word
  | .getTime => 0
  | .setTimeout => 1
  | .cancelTimeout => 2

def Opcode.ofWord (w : Word) : Except ProtocolFault Opcode :=
  if w = 0 then .ok .getTime
  else if w = 1 then .ok .setTimeout
  else if w = 2 then .ok .cancelTimeout
  else .error (.unknownOpcode w)

/-- What a client asks of the clock, with a wake capability of type `κ`. -/
inductive Request (κ : Type) where
  | getTime
  | setTimeout (periodic : Bool) (period : UInt32) (wake : κ)
  | cancelTimeout (id : TimeoutId)
  deriving DecidableEq

namespace Request

variable {κ : Type}

def opcode : Request κ → Opcode
  | .getTime => .getTime
  | .setTimeout .. => .setTimeout
  | .cancelTimeout _ => .cancelTimeout

/-- The message a request is sent as. -/
def toMessage : Request κ → Message κ
  | .getTime => { label := 0, words := [], fits := by simp }
  | .setTimeout periodic period wake =>
    { label := 1, words := [if periodic then 1 else 0, period.toUInt64], cap := some wake,
      fits := by simp [maxMessageWords] }
  | .cancelTimeout id => { label := 2, words := [id.toWord], fits := by simp [maxMessageWords] }

/-- The request in a message, apart from its effect on the message. -/
def decode (m : Message κ) : Except ProtocolFault (Request κ) := do
  match ← Opcode.ofWord m.label with
  | .getTime => .ok .getTime
  | .setTimeout =>
    let periodic ← m.flagArg 0
    let period ← m.tickArg 1
    if periodic && period == 0 then .error .zeroPeriod
    else match m.cap with
      | some wake => .ok (.setTimeout periodic period wake)
      | none => .error .missingWake
  | .cancelTimeout => do
    let w ← m.arg 0
    return .cancelTimeout (← TimeoutId.ofWord w)

/-- What is left of a message once a request was decoded from it: a timeout takes the attached
capability, and nothing else does. -/
def remainder (m : Message κ) : Except ProtocolFault (Request κ) → Message κ
  | .ok (.setTimeout ..) => m.dropCap
  | _ => m

/-- Decode a request, moving the wake capability of a timeout out of the message. -/
def ofMessage (m : Message κ) : Except ProtocolFault (Request κ) × Message κ :=
  (decode m, remainder m (decode m))

def debugText (wakeText : κ → String) : Request κ → String
  | .getTime => "GetTime"
  | .setTimeout periodic period wake =>
    s!"SetTimeout \x7b periodic: {periodic}, period_ms: {period}, wake: {wakeText wake} \x7d"
  | .cancelTimeout id => s!"CancelTimeout \x7b id: {id.debugText} \x7d"

end Request

/-! ## Replies -/

/-- How a request ended. -/
inductive Status where
  | ok
  /-- The schedule is full, or the timeout is not pending. -/
  | failed
  | badRequest
  deriving DecidableEq

namespace Status

def toWord : Status → Word
  | .ok => 0
  | .failed => 1
  | .badRequest => 2

def ofWord (w : Word) : Except ProtocolFault Status :=
  if w = 0 then .ok .ok
  else if w = 1 then .ok .failed
  else if w = 2 then .ok .badRequest
  else .error (.unknownStatus w)

def name : Status → String
  | .ok => "Ok"
  | .failed => "Failed"
  | .badRequest => "BadRequest"

@[simp] theorem ofWord_toWord (s : Status) : ofWord s.toWord = .ok s := by
  cases s <;> rfl

end Status

/-- What the clock answers. -/
inductive Reply where
  | time (tick : UInt32)
  | scheduled (id : TimeoutId) (insertedAt : UInt32)
  | cancelled
  | failed (status : Status)
  deriving DecidableEq

namespace Reply

variable {κ : Type}

/-- The message a reply is sent as. -/
def toMessage : Reply → Message κ
  | .time tick =>
    { label := Status.ok.toWord, words := [tick.toUInt64], fits := by simp [maxMessageWords] }
  | .scheduled id insertedAt =>
    { label := Status.ok.toWord, words := [id.toWord, insertedAt.toUInt64],
      fits := by simp [maxMessageWords] }
  | .cancelled => { label := Status.ok.toWord, words := [], fits := by simp }
  | .failed status => { label := status.toWord, words := [], fits := by simp }

/-- Decode the reply to a request with a given opcode word. -/
def ofMessage (opcode : Word) (m : Message κ) : Except ProtocolFault Reply := do
  let status ← Status.ofWord m.label
  if status ≠ .ok then return .failed status
  match ← Opcode.ofWord opcode with
  | .getTime => return .time (← m.tickArg 0)
  | .setTimeout =>
    let w ← m.arg 0
    let id ← TimeoutId.ofWord w
    return .scheduled id (← m.tickArg 1)
  | .cancelTimeout => return .cancelled

def debugText : Reply → String
  | .time tick => s!"Time \x7b tick: {tick} \x7d"
  | .scheduled id insertedAt =>
    s!"Scheduled \x7b id: {id.debugText}, inserted_at: {insertedAt} \x7d"
  | .cancelled => "Cancelled"
  | .failed status => s!"Failed({status.name})"

end Reply

end Osal
