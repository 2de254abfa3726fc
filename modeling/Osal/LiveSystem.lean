import Osal.Host
import Osal.Population
import Osal.System

/-!
# A system at work

A live system is a system with the host that it runs on, the processes created so far and their
threads. Process zero is root. A destroyed process is no longer in the table of the system; whoever
still has it can go on using it.

A thread that sleeps is both a thread of its process and a thread of the host. When its sleep ends,
so does its routine, with the tick as exit code, or minus one if the sleep was refused.
-/

namespace Osal

/-- A system, its host, and its processes with their threads. -/
structure LiveSystem where
  system : System
  host : Host
  population : Population

namespace LiveSystem

/-- Start a system on a host with a number of notifications. -/
def boot (config : Config) (timer : ClockTimer) (wakes : Nat) : Except Stop LiveSystem := do
  let (system, clock) ← System.boot config timer
  let root ← system.root.mapError .broken
  let (clock, wakes) := clock.catchUp (Wakes.ofCount wakes)
  let host : Host := { machine := { wakes, clock := some clock } }
  return { system, host, population := { processes := #[root] } }

/-- The process with a number, in the order of creation. -/
def process? (s : LiveSystem) (k : Nat) : Option ProcessEnv := s.population.processes[k]?

/-- How the routine of a sleeping thread ends. -/
def sleeperEnd : ActivityEnd → RoutineEnd
  | .slept (.ok tick) => .returned tick.toInt32
  | _ => .returned (-1)

/-- Let the routine of a thread end whose sleep has ended. -/
def reap (s : LiveSystem) (k : Nat) : LiveSystem :=
  match s.population.routine? k with
  | some (.sleeping hostThread) =>
    match s.host.end? hostThread with
    | some slept => { s with population := s.population.complete k (sleeperEnd slept) }
    | none => s
  | _ => s

def withHost (s : LiveSystem) (host : Host) : LiveSystem :=
  (List.range s.population.residents.size).foldl reap { s with host }

def withMachine (s : LiveSystem) (machine : Machine) : LiveSystem :=
  s.withHost (s.host.withMachine machine)

def createProcess (s : LiveSystem) (name : String) : Except Stop ProcessEnv × LiveSystem :=
  let (result, system, buffers) := s.system.createProcess s.host.machine.buffers name
  let s := { s with system, host := { s.host with machine := { s.host.machine with buffers } } }
  match result with
  | .error e => (.error e, s)
  | .ok p =>
    let processes := s.population.processes.push p
    (.ok p, { s with population := { s.population with processes } })

def addSemaphore (s : LiveSystem) (p : ProcessEnv) (initial : Bool) : LiveSystem :=
  let m := s.host.machine
  s.withMachine { m with semaphores := m.semaphores.push (p.semaphore initial) }

/-- Spawn a thread in a process that waits to be released. -/
def spawn (s : LiveSystem) (process : Nat) (p : ProcessEnv) (name : Option String)
    (routineEnd : RoutineEnd) : Except Error (Nat × LiveSystem) :=
  (s.population.spawn process p name (.gated routineEnd)).map fun (k, population) =>
    (k, { s with population })

/-- Spawn a thread in a process that sleeps. -/
def spawnSleeper (s : LiveSystem) (process : Nat) (p : ProcessEnv) (name : Option String)
    (ms : Tick) : Except Error (Nat × LiveSystem) := do
  let (k, population) ← s.population.spawn process p name (.sleeping s.host.threads.size)
  let call ← p.sleep ms 0
  let (_, host) := s.host.sleep fun wait => { call with wait }
  return (k, { s with population }.withHost host)

def slept? (s : LiveSystem) (k : Nat) : Option ActivityEnd :=
  match s.population.routine? k with
  | some (.sleeping hostThread) => s.host.end? hostThread
  | _ => none

def debugText (s : LiveSystem) : String :=
  (s.host.machine.clock.map s.system.debugText).getD ""

end LiveSystem

end Osal
