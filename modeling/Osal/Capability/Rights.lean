/-!
# Capability rights

A set of rights is a byte. Three of its bits have a meaning; the others are kept as they are, and
only `known` and `complement` drop them.
-/

namespace Osal

/-- A set of rights, held as the bits of one byte. -/
structure Rights where
  bits : UInt8
  deriving DecidableEq

namespace Rights

/-- The right to wait on an object. -/
def read : Rights := ⟨1⟩

/-- The right to signal an object. -/
def write : Rights := ⟨2⟩

/-- The right to hand a capability on. -/
def grant : Rights := ⟨4⟩

/-- Every right that has a meaning. -/
def all : Rights := ⟨7⟩

/-- The rights that have a meaning, each with its name, in the order of their bits. -/
def named : List (String × Rights) := [("READ", read), ("WRITE", write), ("GRANT", grant)]

def union (a b : Rights) : Rights := ⟨a.bits ||| b.bits⟩

def inter (a b : Rights) : Rights := ⟨a.bits &&& b.bits⟩

/-- The rights of `a` that `b` does not have. -/
def diff (a b : Rights) : Rights := ⟨a.bits &&& ~~~b.bits⟩

/-- The part of a set that has a meaning. -/
def known (a : Rights) : Rights := a.inter all

/-- The rights with a meaning that `a` does not have. -/
def complement (a : Rights) : Rights := ⟨~~~a.bits &&& all.bits⟩

/-- Whether `a` has every right of `b`. -/
def contains (a b : Rights) : Bool := a.bits &&& b.bits == b.bits

def intersects (a b : Rights) : Bool := a.bits &&& b.bits != 0

def isEmpty (a : Rights) : Bool := a.bits == 0

def isAll (a : Rights) : Bool := a.contains all

/-- The byte as a set of rights, refused if a bit without meaning is set. -/
def ofBits? (bits : UInt8) : Option Rights :=
  if bits &&& ~~~all.bits = 0 then some ⟨bits⟩ else none

def names (a : Rights) : List String :=
  (named.filter fun entry => a.contains entry.2).map (·.1)

/-- A byte in base sixteen, without leading zeros. -/
def hexText (b : UInt8) : String :=
  "0x" ++ String.ofList (Nat.toDigits 16 b.toNat)

/-- The names, and then the bits without meaning as one number; the empty set is the number zero. -/
def listing (a : Rights) : String :=
  let unknown := a.diff all
  if a.isEmpty then hexText 0
  else String.intercalate " | " (a.names ++ if unknown.isEmpty then [] else [hexText unknown.bits])

def debugText (a : Rights) : String := s!"CapRights({a.listing})"

theorem contains_iff {a b : Rights} : a.contains b = true ↔ a.inter b = b := by
  simp [contains, inter]
  constructor
  · intro h
    rw [h]
  · intro h
    exact congrArg Rights.bits h

end Rights

end Osal
