import Osal.Config
import Osal.Ipc.Client
import Osal.Semaphore
import Osal.Thread

/-!
# The environment of a process

A process environment bounds the threads that run in the process, names them, and holds the
capabilities they share: a clock and a pair of buffers. A spawn takes the thread slot that has been
free longest; the position of the slot goes into the name of a thread that was given none.
-/

namespace Osal

/-- The environment of a process, with the thread slots that are in use. -/
structure ProcessEnv where
  pid : Pid
  name : String
  config : Config
  clock : Option ClockClient := none
  ipc : Option IpcClient := none
  /-- The names of the live threads. -/
  threads : Pool String

namespace ProcessEnv

def ofConfig (pid : Pid) (name : String) (config : Config) (clock : Option ClockClient)
    (ipc : Option IpcClient) : Except Violation ProcessEnv :=
  (Pool.blank config.maxThreadsPerProcess "" (· == ·)).map fun threads =>
    { pid, name, config, clock, ipc, threads }

def threadCount (p : ProcessEnv) : Nat := p.threads.size

/-- The name that a thread in a slot gets. -/
def threadName (p : ProcessEnv) (name : Option String) (slot : Nat) : String :=
  Text.truncate (name.getD (Thread.defaultName p.pid slot)) p.config.threadNameMaxLen

/-- Start a thread, with a given name or one of its own. -/
def spawn (p : ProcessEnv) (name : Option String) : Except Error (Thread × ProcessEnv) :=
  match p.threads.allocate with
  | .error e => .error e
  | .ok (slot, threads) =>
    let name := p.threadName name slot.index
    .ok ({ name, pid := p.pid, slot },
      { p with threads := threads.modifyAt slot.index fun _ => name })

/-- Give a thread slot back; a slot that was already given back stays as it is. -/
def releaseSlot (p : ProcessEnv) (slot : Handle) : ProcessEnv :=
  match p.threads.free slot with
  | .ok threads => { p with threads }
  | .error _ => p

/-- A thread whose routine has ended gives its slot back and is finished. -/
def finish (p : ProcessEnv) (t : Thread) : Thread × ProcessEnv :=
  match t.phase with
  | .leaving routineEnd =>
    ({ t with phase := .finished routineEnd }, p.releaseSlot t.slot)
  | _ => (t, p)

def complete (p : ProcessEnv) (t : Thread) (routineEnd : RoutineEnd) : Thread × ProcessEnv :=
  match t.phase with
  | .running => p.finish (t.leave routineEnd)
  | _ => p.finish t

/-- A semaphore sized for the threads of the process and one more. -/
def semaphore (p : ProcessEnv) (initial : Bool) : Semaphore :=
  .ofSize initial p.config.semaphoreQueueSize p.clock

/-- The sleep of a thread of the process, which needs a clock. -/
def sleep (p : ProcessEnv) (ms : Tick) (wait : NotificationId) : Except Error Sleep :=
  match p.clock with
  | some client => .ok { client, ms, wait }
  | none => .error .clockUnavailable

def debugText (p : ProcessEnv) : String :=
  s!"Process \x7b pid: {p.pid}, name: {Text.quote p.name}, has_clock: {p.clock.isSome} \x7d"

end ProcessEnv

end Osal
