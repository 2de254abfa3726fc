import Osal.Pool
import Osal.Text.Quoted
import Osal.Text.Truncate
import Osal.Tid

/-!
# Threads of a process

A thread has a name and occupies a slot of its process from its spawn until its routine has returned
or unwound. The slot is given back by the thread itself, after the routine and before the thread
counts as finished; dropping the handle of a thread changes nothing about that.
-/

namespace Osal

/-- The number of a process. -/
abbrev Pid := UInt32

/-- How a routine ends. -/
inductive RoutineEnd where
  | returned (code : Int32)
  | panicked
  deriving DecidableEq

/-- How far a spawned thread got. -/
inductive ThreadPhase where
  /-- Inside its routine. -/
  | running
  /-- The routine has ended, and the slot is still occupied. -/
  | leaving (routineEnd : RoutineEnd)
  /-- The slot is given back. -/
  | finished (routineEnd : RoutineEnd)
  deriving DecidableEq

/-- A spawned thread. -/
structure Thread where
  name : String
  pid : Pid
  slot : Handle
  phase : ThreadPhase := .running
  deriving DecidableEq

namespace Thread

/-- Whether the routine has returned or unwound and the slot is given back. -/
def isFinished (t : Thread) : Bool :=
  match t.phase with
  | .finished _ => true
  | _ => false

def leave (t : Thread) (routineEnd : RoutineEnd) : Thread := { t with phase := .leaving routineEnd }

/-- What joining the thread gives: its exit code, or that its routine panicked. A thread that has
not finished blocks, and nothing is answered. -/
def join (t : Thread) : Option (Except Error Int32) :=
  match t.phase with
  | .finished (.returned code) => some (.ok code)
  | .finished .panicked => some (.error (.threadPanicked t.name))
  | _ => none

def debugText (t : Thread) : String :=
  s!"Thread \x7b name: {Text.quote t.name}, pid: {t.pid}, finished: {t.isFinished} \x7d"

/-! ## Names -/

/-- The name of a thread that no process spawned: the one it was created with, or its number. -/
def adoptedName (given : Option String) (tid : Tid) : String := given.getD tid.defaultName

/-- A number with at least two digits. -/
def twoDigits (n : Nat) : String := if n < 10 then s!"0{n}" else s!"{n}"

/-- The whole name of a thread that was given none: the process and the position of the slot,
counted from one. -/
def defaultName (pid : Pid) (slot : Nat) : String :=
  "p-" ++ twoDigits pid.toNat ++ "-t-" ++ twoDigits (slot + 1)

end Thread

end Osal
