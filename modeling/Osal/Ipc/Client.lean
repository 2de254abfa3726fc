/-!
# Clients of the buffer registry

A client is a number and the two buffers that were made for it. Clients with the same number count
as equal, whichever buffers they have.
-/

namespace Osal

/-- The number of a shared buffer. -/
abbrev BufferId := Nat

/-- A pair of buffers, one for each direction. -/
structure IpcClient where
  id : UInt32
  rx : BufferId
  tx : BufferId
  deriving DecidableEq

namespace IpcClient

/-- Whether two clients count as equal. -/
def same (a b : IpcClient) : Bool := a.id == b.id

/-- The buffer towards the process, or the one from it. -/
def buffer (c : IpcClient) (fromProcess : Bool) : BufferId := if fromProcess then c.tx else c.rx

def debugText (c : IpcClient) : String := s!"IpcClient \x7b id: {c.id} \x7d"

end IpcClient

end Osal
