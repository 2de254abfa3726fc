import Osal.ProcessEnv

/-!
# Processes and their threads

A population is a number of processes and the threads spawned in them so far. Each thread has a
routine that either waits to be released and then ends in a known way, or sleeps as a thread of the
host.
-/

namespace Osal

/-- What a spawned thread does. -/
inductive Routine where
  /-- Waits to be released, and then ends. -/
  | gated (routineEnd : RoutineEnd)
  /-- Sleeps, as a thread of the host. -/
  | sleeping (hostThread : Nat)
  deriving DecidableEq

/-- A thread that was spawned in a process. -/
structure Resident where
  process : Nat
  thread : Thread
  routine : Routine

/-- Processes and the threads spawned in them so far. -/
structure Population where
  processes : Array ProcessEnv
  residents : Array Resident := #[]

namespace Population

def spawn (s : Population) (process : Nat) (p : ProcessEnv) (name : Option String)
    (routine : Routine) : Except Error (Nat × Population) :=
  (p.spawn name).map fun (thread, p) =>
    (s.residents.size,
      { processes := s.processes.setIfInBounds process p,
        residents := s.residents.push { process, thread, routine } })

/-- Let the routine of a thread end, unless it already has. -/
def complete (s : Population) (k : Nat) (routineEnd : RoutineEnd) : Population :=
  match s.residents[k]? with
  | none => s
  | some resident =>
    match s.processes[resident.process]? with
    | none => s
    | some p =>
      let (thread, p) := p.complete resident.thread routineEnd
      { processes := s.processes.setIfInBounds resident.process p,
        residents := s.residents.setIfInBounds k { resident with thread } }

def routine? (s : Population) (k : Nat) : Option Routine := (s.residents[k]?).map (·.routine)

def release (s : Population) (k : Nat) : Population :=
  match s.routine? k with
  | some (.gated routineEnd) => s.complete k routineEnd
  | _ => s

def join (s : Population) (k : Nat) : Option (Except Error Int32) :=
  (s.residents[k]?).bind (·.thread.join)

end Population

end Osal
