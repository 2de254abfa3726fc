import Osal.IndexList

/-!
# Pools

A pool is a fixed number of slots, each with an element that never moves. Two lists over one array
of links part the slots into free and allocated ones. Allocation takes the slot that has been free
longest; a released slot goes to the end of the free list.

A handle names a slot together with the generation it was allocated in. A release starts the next
generation, so a handle to a released element is told from a handle to whatever the slot holds now.
-/

namespace Osal

/-- The state of a slot apart from its element. -/
structure SlotMark where
  generation : UInt32 := 0
  allocated : Bool := false
  deriving DecidableEq, Inhabited

/-- A reference to an allocated element. -/
structure Handle where
  index : Nat
  generation : UInt32
  deriving DecidableEq

/-- What a visitor decides about the element it is shown. -/
inductive Verdict where
  | keep
  | release
  deriving DecidableEq

/-- A fixed set of slots with elements of type `α`. -/
structure Pool (α : Type) where
  elements : Array α
  marks : Array SlotMark
  links : Links
  freeList : IndexList
  allocatedList : IndexList
  /-- Cleans an element when it is handed out and when it is returned. -/
  init : α → α
  /-- Compares an allocated element with a probe. -/
  equal : α → α → Bool

namespace Pool

variable {α σ : Type}

/-- The free list over all slots in order, and its links. -/
def threadAll (capacity : Nat) : IndexList × Links :=
  (List.range capacity).foldl (fun state i => state.1.pushBack state.2 i) (.empty, .ofSize capacity)

/-- A pool of free slots whose elements are made from their positions and cleaned. -/
def ofFn (capacity : Nat) (make : Nat → α) (init : α → α) (equal : α → α → Bool) :
    Except Violation (Pool α) :=
  if capacity = 0 then .error .zeroCapacity
  else
    let (freeList, links) := threadAll capacity
    .ok {
      elements := Array.ofFn fun i : Fin capacity => init (make i)
      marks := Array.replicate capacity {}
      links, freeList, allocatedList := .empty, init, equal }

/-- A pool of equal elements that are reset to `blank` on every change of hands. -/
def blank (capacity : Nat) (blank : α) (equal : α → α → Bool) : Except Violation (Pool α) :=
  ofFn capacity (fun _ => blank) (fun _ => blank) equal

def capacity (p : Pool α) : Nat := p.elements.size

def size (p : Pool α) : Nat := p.allocatedList.length

def freeCount (p : Pool α) : Nat := p.freeList.length

def isExhausted (p : Pool α) : Bool := p.freeList.isEmpty

/-- The mark of a slot; beyond the last slot nothing is allocated. -/
def markAt (p : Pool α) (i : Nat) : SlotMark := p.marks.getD i {}

/-- The handle that the element of a slot has now. -/
def handleAt (p : Pool α) (i : Nat) : Handle :=
  { index := i, generation := (p.markAt i).generation }

/-- The free slots, longest free first. -/
def freeSlots (p : Pool α) : List Nat := p.freeList.toList p.links

/-- The allocated slots in the order of their allocation. -/
def allocatedSlots (p : Pool α) : List Nat := p.allocatedList.toList p.links

/-- The allocated elements with their handles, in the order of their allocation. -/
def toList (p : Pool α) : List (Handle × α) :=
  p.allocatedSlots.filterMap fun i => p.elements[i]?.map fun a => (p.handleAt i, a)

/-- Whether a handle refers to an allocated element. -/
def isLive (p : Pool α) (h : Handle) : Bool :=
  match p.marks[h.index]? with
  | some mark => mark.allocated && mark.generation == h.generation
  | none => false

/-- The element of a handle, or nothing if it was released. -/
def get? (p : Pool α) (h : Handle) : Option α :=
  if p.isLive h then p.elements[h.index]? else none

/-- The element of a handle; asking for a released one breaks the contract. -/
def get (p : Pool α) (h : Handle) : Except Violation α :=
  match p.get? h with
  | some a => .ok a
  | none => .error (.staleHandle h.index h.generation)

def modifyAt (p : Pool α) (i : Nat) (f : α → α) : Pool α :=
  { p with elements := p.elements.modify i f }

/-- Replace the element of a handle; a released one breaks the contract. -/
def set (p : Pool α) (h : Handle) (a : α) : Except Violation (Pool α) :=
  if p.isLive h then .ok (p.modifyAt h.index fun _ => a)
  else .error (.staleHandle h.index h.generation)

/-- Take the slot that has been free longest. -/
def allocate (p : Pool α) : Except Error (Handle × Pool α) :=
  match p.freeList.popFront p.links with
  | none => .error (.exhausted p.capacity)
  | some (i, freeList, links) =>
    let (allocatedList, links) := p.allocatedList.pushBack links i
    .ok (p.handleAt i, { p with
      elements := p.elements.modify i p.init
      marks := p.marks.modify i fun mark => { mark with allocated := true }
      links, freeList, allocatedList })

/-- Move an allocated slot to the end of the free list and start its next generation. -/
def release (p : Pool α) (i : Nat) : Pool α :=
  let (allocatedList, links) := p.allocatedList.unlink p.links i
  let (freeList, links) := p.freeList.pushBack links i
  { p with
    elements := p.elements.modify i p.init
    marks := p.marks.modify i fun mark => { allocated := false, generation := mark.generation + 1 }
    links, freeList, allocatedList }

/-- Return the element of a handle. -/
def free (p : Pool α) (h : Handle) : Except Error (Pool α) :=
  if p.isLive h then .ok (p.release h.index) else .error .notFound

/-- The first allocated element that satisfies a predicate. -/
def findBy (p : Pool α) (holds : α → Bool) : Option Handle :=
  (p.toList.find? fun entry => holds entry.2).map (·.1)

def find (p : Pool α) (probe : α) : Option Handle := p.findBy fun a => p.equal a probe

def freeValue (p : Pool α) (probe : α) : Except Error (Pool α) :=
  match p.find probe with
  | some h => p.free h
  | none => .error .notFound

/-! ## Sweeping -/

/-- What a visitor answers: its next state, the element as it leaves it, and what becomes of it. -/
abbrev Visitor (σ α : Type) := σ → Handle → α → σ × α × Verdict

/-- Visit the allocated elements from a slot on. The successor is read before the visit, so a
release does not disturb the walk. -/
def sweepFrom (visit : Visitor σ α) : Nat → Option Nat → σ → Nat → Pool α → σ × Nat × Pool α
  | 0, _, s, released, p => (s, released, p)
  | _ + 1, none, s, released, p => (s, released, p)
  | fuel + 1, some i, s, released, p =>
    match p.elements[i]? with
    | none => (s, released, p)
    | some a =>
      let next := (p.links.link i).next
      let (s, a, verdict) := visit s (p.handleAt i) a
      let p := p.modifyAt i fun _ => a
      match verdict with
      | .keep => sweepFrom visit fuel next s released p
      | .release => sweepFrom visit fuel next s (released + 1) (p.release i)

/-- Visit every allocated element in the order of allocation and release those the visitor says.
The answer has the visitor's state and the number of released elements. -/
def sweep (p : Pool α) (s : σ) (visit : Visitor σ α) : σ × Nat × Pool α :=
  sweepFrom visit p.capacity p.allocatedList.head s 0 p

/-- The debug text of a pool whose elements take `elementSize` bytes each. -/
def debugText (p : Pool α) (elementSize : Nat) : String :=
  s!"Pool \x7b capacity: {p.capacity}, allocated: {p.size}, free: {p.freeCount}, " ++
    s!"element_size: {elementSize} \x7d"

end Pool

end Osal
