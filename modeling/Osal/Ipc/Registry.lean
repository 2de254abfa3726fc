import Osal.Config
import Osal.Ipc.Buffer
import Osal.Ipc.Client
import Osal.Pool

/-!
# The buffer registry

The registry holds a bounded number of clients in the order in which they registered. Each client
gets two fresh buffers. Numbers may repeat; an operation on a number means the client with it that
registered first. The buffers live on after their client is removed, for whoever still holds it.
-/

namespace Osal

/-- The registered clients, and what new ones get. -/
structure IpcRegistry where
  clients : Pool (Option IpcClient)
  rxSize : Nat
  txSize : Nat
  maxWaiters : Nat
  clock : Option ClockClient

namespace IpcRegistry

def ofConfig (config : Config) (clock : Option ClockClient) : Except Violation IpcRegistry :=
  (Pool.blank config.maxUserProcesses none (· == ·)).map fun clients =>
    { clients, rxSize := config.ipcRxBufSize, txSize := config.ipcTxBufSize,
      maxWaiters := config.semaphoreQueueSize, clock }

def size (r : IpcRegistry) : Nat := r.clients.size

/-- The registered clients in the order in which they registered. -/
def toList (r : IpcRegistry) : List IpcClient := r.clients.toList.filterMap (·.2)

def holds (id : UInt32) (slot : Option IpcClient) : Bool := slot.any fun c => c.id == id

/-- Register a client with fresh buffers, which are added to all buffers. -/
def create (r : IpcRegistry) (buffers : Array SharedBuffer) (id : UInt32) :
    Except Error (IpcClient × IpcRegistry × Array SharedBuffer) :=
  match r.clients.allocate with
  | .error e => .error e
  | .ok (slot, clients) =>
    let client : IpcClient := { id, rx := buffers.size, tx := buffers.size + 1 }
    let buffers := buffers.push (.ofSize r.rxSize r.maxWaiters r.clock)
    let buffers := buffers.push (.ofSize r.txSize r.maxWaiters r.clock)
    .ok (client, { r with clients := clients.modifyAt slot.index fun _ => some client }, buffers)

/-- Remove the client with a number that registered first. -/
def remove (r : IpcRegistry) (id : UInt32) : Except Error IpcRegistry :=
  match r.clients.findBy (holds id) with
  | none => .error .notFound
  | some slot => (r.clients.free slot).map fun clients => { r with clients }

/-- The client with a number that registered first. -/
def client? (r : IpcRegistry) (id : UInt32) : Option IpcClient :=
  r.toList.find? fun c => c.id == id

end IpcRegistry

end Osal
