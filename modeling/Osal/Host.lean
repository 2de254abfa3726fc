import Osal.Machine

/-!
# Hosts

A host is a machine and the threads on it, each as far as it got in its activity. After every event
the host settles: its threads take turns until each is blocked or has ended. That is one of the
interleavings of the threads' steps, and one in which every thread has its turn.
-/

namespace Osal

/-- A machine and the threads on it. -/
structure Host where
  machine : Machine := {}
  threads : Array (Progress Activity ActivityEnd) := #[]
  /-- The threads that have ended, in the order in which they did. -/
  ended : List Nat := []

namespace Host

/-! ## Taking turns -/

/-- No activity takes more steps than this before it is blocked or done. -/
def stepsPerTurn : Nat := 8 * Guarded.maxSteps

/-- Let a thread go on until it is blocked or has ended, and add it to the threads so far. -/
def turn (h : Host) : Progress Activity ActivityEnd → Host
  | .finished o => { h with threads := h.threads.push (.finished o) }
  | .stalled activity =>
    match Program.run Machine.stepActivity stepsPerTurn h.machine activity with
    | (machine, .stalled p) => { h with machine, threads := h.threads.push (.stalled p) }
    | (machine, .finished o) =>
      { machine, threads := h.threads.push (.finished o), ended := h.ended ++ [h.threads.size] }

def round (h : Host) : Host := h.threads.foldl turn { h with threads := #[] }

def rounds : Nat → Host → Host
  | 0, h => h
  | n + 1, h => rounds n h.round

/-- Let the threads take turns until all are blocked or have ended. In each round but the last a
thread ended that released others. -/
def settle (h : Host) : Host := rounds (h.threads.size + 1) h

/-! ## Threads -/

/-- Start a thread with an activity that may wait on the thread's own notification, and settle. The
answer is the number of the thread. -/
def launch (h : Host) (activity : NotificationId → Activity) : Nat × Host :=
  let (wait, machine) := h.machine.addThread
  (h.threads.size,
    { h with machine, threads := h.threads.push (.stalled (activity wait)) }.settle)

def end? (h : Host) (k : Nat) : Option ActivityEnd :=
  match h.threads[k]? with
  | some (.finished o) => some o
  | _ => none

def take (h : Host) (semaphore : Nat) (timeoutMs : Int32) : Nat × Host :=
  h.launch fun wait => .take semaphore { timeoutMs, wait } .entering

def sleep (h : Host) (sleep : NotificationId → Sleep) : Nat × Host :=
  h.launch fun wait => .sleep (sleep wait) .scheduling

def fill (h : Host) (buffer : BufferId) (timeoutMs : Int32) (bytes : List UInt8) : Nat × Host :=
  let me := Tid.ofIndex (h.threads.size + 1)
  h.launch fun wait => .fill buffer me { timeoutMs, wait } bytes (.acquiring (.taking .entering))

/-! ## Events -/

def withMachine (h : Host) (machine : Machine) : Host := { h with machine }.settle

def give (h : Host) (semaphore : Nat) : Option Host :=
  (h.machine.give semaphore).map h.withMachine

/-- Handle a number of interrupts, and settle after each; stop at the first that is refused. -/
def interrupts : Nat → Host → Except PlatformError Unit × Host
  | 0, h => (.ok (), h)
  | n + 1, h =>
    match h.machine.interrupt with
    | (.ok (), machine) => interrupts n (h.withMachine machine)
    | (.error e, machine) => (.error e, h.withMachine machine)

end Host

end Osal
