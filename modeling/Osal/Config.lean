/-!
# Configuration

The limits that a system is built with. Five of the seven settings have to be positive; the first
one that is not, in the order of `Setting.required`, is the one reported.
-/

namespace Osal

/-- The limits of a system. -/
structure Config where
  sysclockPeriodMs : UInt32 := 10
  sysclockMaxEntries : Nat := 100
  maxThreadsPerProcess : Nat := 16
  maxUserProcesses : Nat := 8
  threadNameMaxLen : Nat := 16
  ipcRxBufSize : Nat := 4096
  ipcTxBufSize : Nat := 4096
  deriving DecidableEq

/-- A setting of a configuration. -/
inductive Setting where
  | sysclockPeriodMs
  | sysclockMaxEntries
  | maxThreadsPerProcess
  | maxUserProcesses
  | threadNameMaxLen
  | ipcRxBufSize
  | ipcTxBufSize
  deriving DecidableEq

namespace Setting

/-- The settings in the order in which a configuration lists them. -/
def all : List Setting :=
  [.sysclockPeriodMs, .sysclockMaxEntries, .maxThreadsPerProcess, .maxUserProcesses,
    .threadNameMaxLen, .ipcRxBufSize, .ipcTxBufSize]

/-- The settings that have to be positive, in the order in which they are checked. -/
def required : List Setting :=
  [.sysclockPeriodMs, .sysclockMaxEntries, .maxThreadsPerProcess, .maxUserProcesses,
    .threadNameMaxLen]

def key : Setting → String
  | .sysclockPeriodMs => "sysclock_period_ms"
  | .sysclockMaxEntries => "sysclock_max_entries"
  | .maxThreadsPerProcess => "max_threads_per_process"
  | .maxUserProcesses => "max_user_processes"
  | .threadNameMaxLen => "thread_name_max_len"
  | .ipcRxBufSize => "ipc_rx_buf_size"
  | .ipcTxBufSize => "ipc_tx_buf_size"

def ofKey? (k : String) : Option Setting := all.find? fun s => s.key == k

/-- The largest value of a setting: a tick for the period, a word for the others. -/
def maximum : Setting → Nat
  | .sysclockPeriodMs => 4294967295
  | _ => 18446744073709551615

def value (c : Config) : Setting → Nat
  | .sysclockPeriodMs => c.sysclockPeriodMs.toNat
  | .sysclockMaxEntries => c.sysclockMaxEntries
  | .maxThreadsPerProcess => c.maxThreadsPerProcess
  | .maxUserProcesses => c.maxUserProcesses
  | .threadNameMaxLen => c.threadNameMaxLen
  | .ipcRxBufSize => c.ipcRxBufSize
  | .ipcTxBufSize => c.ipcTxBufSize

/-- A configuration with one setting changed. -/
def assign (c : Config) (n : Nat) : Setting → Config
  | .sysclockPeriodMs => { c with sysclockPeriodMs := UInt32.ofNat n }
  | .sysclockMaxEntries => { c with sysclockMaxEntries := n }
  | .maxThreadsPerProcess => { c with maxThreadsPerProcess := n }
  | .maxUserProcesses => { c with maxUserProcesses := n }
  | .threadNameMaxLen => { c with threadNameMaxLen := n }
  | .ipcRxBufSize => { c with ipcRxBufSize := n }
  | .ipcTxBufSize => { c with ipcTxBufSize := n }

end Setting

/-- Why a configuration was refused. -/
inductive ConfigError where
  /-- The text could not be read. -/
  | unreadable
  /-- The text is not a document of settings. -/
  | malformed
  /-- A setting that has to be positive is zero. -/
  | zero (setting : Setting)
  deriving DecidableEq

/-- What a refused configuration is reported as. -/
def ConfigError.reason : ConfigError → String
  | .unreadable => "unreadable"
  | .malformed => "malformed"
  | .zero setting => setting.key ++ " must be non-zero"

namespace Config

/-- How many threads may wait for one semaphore: all threads of a process and one more. -/
def semaphoreQueueSize (c : Config) : Nat := c.maxThreadsPerProcess + 1

/-- Check that every required setting is positive. -/
def validate (c : Config) : Except ConfigError Unit :=
  match Setting.required.find? fun s => s.value c == 0 with
  | some s => .error (.zero s)
  | none => .ok ()

def validated (c : Config) : Except ConfigError Config := c.validate.map fun _ => c

theorem validate_eq_ok_iff {c : Config} :
    c.validate = .ok () ↔ ∀ s ∈ Setting.required, s.value c ≠ 0 := by
  unfold validate
  split
  · rename_i s h
    constructor
    · intro h'
      cases h'
    · intro h'
      exact absurd (by simpa using List.find?_some h) (h' s (List.mem_of_find?_eq_some h))
  · rename_i h
    simp only [List.find?_eq_none, beq_iff_eq] at h
    simpa using h

end Config

end Osal
