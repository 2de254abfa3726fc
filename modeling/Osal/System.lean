import Osal.Clock.Service
import Osal.Ipc.Registry
import Osal.ProcessEnv

/-!
# The system

The system owns the clock, the table of user processes and the buffer registry. A created process
gets the next number, a clock capability badged with it, and a registered pair of buffers of the
same number. The table and the registry are bounded alike.
-/

namespace Osal

/-- What the process table knows about a live process. -/
structure ProcessRecord where
  pid : Pid
  name : String
  deriving DecidableEq

/-- The number of the root process. -/
def rootPid : Pid := 0

/-- The process table and the buffer registry of a system. -/
structure System where
  config : Config
  records : Pool ProcessRecord
  /-- The number of the next created process. -/
  nextPid : Pid := rootPid + 1
  ipc : IpcRegistry

namespace System

/-- The clock capability of a process. -/
def clockOf (pid : Pid) : ClockClient := { badge := pid.toUInt64 }

def ofConfig (config : Config) : Except Violation System := do
  let ipc ← IpcRegistry.ofConfig config (some (clockOf rootPid))
  let records ← Pool.blank config.maxUserProcesses { pid := rootPid, name := "" } (· == ·)
  return { config, records, ipc }

/-- Start a clock, and set up a system that uses it. -/
def boot (config : Config) (timer : ClockTimer) : Except Stop (System × SysClock) := do
  let clock ← SysClock.ofConfig config timer
  let clock ← clock.start.mapError .refused
  let s ← (ofConfig config).mapError .broken
  return (s, clock)

/-- The root process, which has no buffers of its own. -/
def root (s : System) : Except Violation ProcessEnv :=
  ProcessEnv.ofConfig rootPid "root" s.config (some (clockOf rootPid)) none

def processCount (s : System) : Nat := s.records.size

/-- The table slot of a live process. -/
def find (s : System) (pid : Pid) : Option Handle :=
  s.records.findBy fun record => record.pid == pid

def processName (s : System) (pid : Pid) : Option String :=
  ((s.find pid).bind s.records.get?).map (·.name)

/-- The live processes in the order of their creation. -/
def processes (s : System) : List ProcessRecord := s.records.toList.map (·.2)

/-- Enter a process into the table and register its buffers, which are added to all buffers. If they
cannot be registered the table slot is given back. -/
def enroll (s : System) (buffers : Array SharedBuffer) (name : String) :
    Except Error (Pid × IpcClient) × System × Array SharedBuffer :=
  match s.records.allocate with
  | .error e => (.error e, s, buffers)
  | .ok (slot, records) =>
    match s.ipc.create buffers s.nextPid with
    | .error e =>
      (.error e, { s with records := (records.free slot).toOption.getD records }, buffers)
    | .ok (client, ipc, buffers) =>
      let records := records.modifyAt slot.index fun _ => { pid := s.nextPid, name }
      (.ok (s.nextPid, client), { s with records, nextPid := s.nextPid + 1, ipc }, buffers)

/-- The environment of an enrolled process. -/
def environment (s : System) (name : String) (pid : Pid) (client : IpcClient) :
    Except Violation ProcessEnv :=
  ProcessEnv.ofConfig pid name s.config (some (clockOf pid)) (some client)

/-- Create a user process. -/
def createProcess (s : System) (buffers : Array SharedBuffer) (name : String) :
    Except Stop ProcessEnv × System × Array SharedBuffer :=
  match s.enroll buffers name with
  | (.error e, s, buffers) => (.error (.refused e), s, buffers)
  | (.ok (pid, client), s, buffers) =>
    match s.environment name pid client with
    | .ok process => (.ok process, s, buffers)
    | .error v => (.error (.broken v), s, buffers)

/-- Remove a user process from the table, and then its buffers from the registry. -/
def destroyProcess (s : System) (pid : Pid) : Except Error Unit × System :=
  match s.find pid with
  | none => (.error .notFound, s)
  | some slot =>
    match s.records.free slot with
    | .error e => (.error e, s)
    | .ok records =>
      match s.ipc.remove pid with
      | .error e => (.error e, { s with records })
      | .ok ipc => (.ok (), { s with records, ipc })

def debugText (s : System) (clock : SysClock) : String :=
  s!"System \x7b clock: {clock.debugText}, processes: {s.processCount} \x7d"

end System

end Osal
