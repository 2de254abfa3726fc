/-!
# Identities of timeouts

A scheduled timeout is named by the capability pointer its wake capability was minted under, which
is never null.
-/

namespace Osal

/-- A number that addresses a capability inside one table; zero addresses nothing. -/
abbrev CapPtr := UInt32

/-- The label a capability carries, which tells its users apart. -/
abbrev Badge := UInt64

/-- A word of a message. -/
abbrev Word := UInt64

/-- The name of a scheduled timeout. -/
structure TimeoutId where
  cptr : CapPtr
  ne_null : cptr ≠ 0
  deriving DecidableEq

namespace TimeoutId

/-- The name written as a message word. -/
def toWord (id : TimeoutId) : Word := id.cptr.toUInt64

/-- The name a word stands for: any word but zero that fits a capability pointer. -/
def ofWord? (w : Word) : Option TimeoutId :=
  if h : w.toUInt32 ≠ 0 ∧ w.toUInt32.toUInt64 = w then some ⟨w.toUInt32, h.1⟩ else none

def text (id : TimeoutId) : String := s!"#{id.cptr}"

def debugText (id : TimeoutId) : String := s!"TimeoutId({id.cptr})"

@[simp] theorem ofWord?_toWord (id : TimeoutId) : ofWord? id.toWord = some id := by
  simp [ofWord?, toWord, id.ne_null]

theorem toWord_of_ofWord? {w : Word} {id : TimeoutId} (h : ofWord? w = some id) :
    id.toWord = w := by
  unfold ofWord? at h
  split at h
  · rename_i hw
    cases h
    exact hw.2
  · cases h

end TimeoutId

end Osal
