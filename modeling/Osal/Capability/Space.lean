import Osal.Capability.Rights
import Osal.Error

/-!
# Capability spaces

A capability space holds a bounded number of capabilities. A capability goes into the first free
slot, but its identity is the next number of a counter, so that a pointer kept after its capability
is revoked addresses nothing rather than whatever landed in the slot.
-/

namespace Osal

/-- An object with the badge and the rights it is held with. -/
structure Capability (α : Type) where
  object : α
  badge : Badge
  rights : Rights
  deriving DecidableEq

/-- A bounded table of capabilities. -/
structure CapSpace (α : Type) where
  slots : List (Option (CapPtr × Capability α))
  /-- The pointer of the next minted capability. -/
  next : CapPtr := 1
  count : Nat := 0
  next_ne_null : next ≠ 0 := by decide

namespace CapSpace

variable {α : Type}

def empty (capacity : Nat) : CapSpace α := { slots := List.replicate capacity none }

def capacity (s : CapSpace α) : Nat := s.slots.length

def size (s : CapSpace α) : Nat := s.count

def isEmpty (s : CapSpace α) : Bool := s.count == 0

/-- The capabilities held, with their pointers, in slot order. -/
def held (s : CapSpace α) : List (CapPtr × Capability α) := s.slots.filterMap id

/-- The counter after a pointer: after the last one it starts again, and it skips the null
pointer. -/
def after (p : CapPtr) : CapPtr := if p + 1 = 0 then 1 else p + 1

theorem after_ne_null (p : CapPtr) : after p ≠ 0 := by
  unfold after
  split
  · decide
  · assumption

/-- The slots with an entry in the first free one, if there is one. -/
def putFirst {β : Type} (entry : β) : List (Option β) → Option (List (Option β))
  | [] => none
  | none :: rest => some (some entry :: rest)
  | some held :: rest => (putFirst entry rest).map (some held :: ·)

/-- The first entry that satisfies a predicate, and the slots without it. -/
def takeFirst {β : Type} (holds : β → Bool) : List (Option β) → Option (β × List (Option β))
  | [] => none
  | none :: rest => (takeFirst holds rest).map fun found => (found.1, none :: found.2)
  | some held :: rest =>
    if holds held then some (held, none :: rest)
    else (takeFirst holds rest).map fun found => (found.1, some held :: found.2)

/-- Hold an object in the first free slot under a pointer of its own. -/
def mint (s : CapSpace α) (object : α) (badge : Badge) (rights : Rights) :
    Except PlatformError ({ p : CapPtr // p ≠ 0 } × CapSpace α) :=
  match putFirst (s.next, ⟨object, badge, rights⟩) s.slots with
  | none => .error (.outOfSlots s.capacity)
  | some slots => .ok (⟨s.next, s.next_ne_null⟩,
      { slots, next := after s.next, count := s.count + 1, next_ne_null := after_ne_null s.next })

def lookup (s : CapSpace α) (p : CapPtr) : Option (Capability α) :=
  (s.held.find? fun entry => entry.1 == p).map (·.2)

/-- The object a pointer addresses, if its capability has some rights. -/
def lookupWith (s : CapSpace α) (p : CapPtr) (rights : Rights) : Except PlatformError α :=
  match s.lookup p with
  | none => .error (.invalidCapability p)
  | some cap =>
    if cap.rights.contains rights then .ok cap.object else .error (.insufficientRights p)

def revoke (s : CapSpace α) (p : CapPtr) : Except PlatformError (Capability α × CapSpace α) :=
  match takeFirst (fun entry => entry.1 == p) s.slots with
  | none => .error (.invalidCapability p)
  | some (entry, slots) => .ok (entry.2, { s with slots, count := s.count - 1 })

end CapSpace

end Osal
