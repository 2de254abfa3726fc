import Osal.Error

/-!
# Lists of indices over one array of links

Several doubly linked lists share one array of links, as long as an index is on at most one of them
at a time. Moving an index from one list to another rewrites a few links and moves nothing else.

`IndexList.toList` is the view of a list: the indices met by following `next` from its head.
-/

namespace Osal

/-- The neighbours of an index on the list it is on. -/
structure Link where
  prev : Option Nat := none
  next : Option Nat := none
  deriving DecidableEq, Inhabited

/-- The links of all indices. -/
structure Links where
  cells : Array Link
  deriving DecidableEq

namespace Links

def ofSize (n : Nat) : Links := ⟨Array.replicate n {}⟩

def size (links : Links) : Nat := links.cells.size

/-- The links of an index; an index beyond the array has none. -/
def link (links : Links) (i : Nat) : Link := links.cells.getD i {}

def set (links : Links) (i : Nat) (link : Link) : Links := ⟨links.cells.setIfInBounds i link⟩

def setNext (links : Links) (i : Nat) (next : Option Nat) : Links :=
  ⟨links.cells.modify i fun link => { link with next }⟩

def setPrev (links : Links) (i : Nat) (prev : Option Nat) : Links :=
  ⟨links.cells.modify i fun link => { link with prev }⟩

/-- The indices met from a position by following `next`, at most `fuel` of them. -/
def follow (links : Links) : Nat → Option Nat → List Nat
  | 0, _ => []
  | _ + 1, none => []
  | fuel + 1, some i => i :: links.follow fuel (links.link i).next

end Links

/-- A list of indices: its ends and its length. The order is in the links. -/
structure IndexList where
  head : Option Nat := none
  tail : Option Nat := none
  length : Nat := 0
  deriving DecidableEq

namespace IndexList

def empty : IndexList := {}

def isEmpty (l : IndexList) : Bool := l.length == 0

/-- The indices of a list from head to tail. No list is longer than the links are many, so a chain
that comes back to itself is followed one index further than that. -/
def toList (l : IndexList) (links : Links) : List Nat := links.follow (links.size + 1) l.head

/-- Append an index that is on no list. -/
def pushBack (l : IndexList) (links : Links) (i : Nat) : IndexList × Links :=
  let links := links.set i { prev := l.tail }
  match l.tail with
  | some last => ({ l with tail := some i, length := l.length + 1 }, links.setNext last (some i))
  | none => ({ head := some i, tail := some i, length := l.length + 1 }, links)

/-- Remove an index that is on this list. -/
def unlink (l : IndexList) (links : Links) (i : Nat) : IndexList × Links :=
  let link := links.link i
  let (head, links) := match link.prev with
    | some p => (l.head, links.setNext p link.next)
    | none => (link.next, links)
  let (tail, links) := match link.next with
    | some n => (l.tail, links.setPrev n link.prev)
    | none => (link.prev, links)
  ({ head, tail, length := l.length - 1 }, links.set i {})

def popFront (l : IndexList) (links : Links) : Option (Nat × IndexList × Links) :=
  l.head.map fun i => (i, l.unlink links i)

end IndexList

/-! ## Lists that share their links -/

/-- An array of links and the lists threaded through it. -/
structure ListFamily where
  links : Links
  lists : List IndexList

namespace ListFamily

def ofSize (size lists : Nat) : ListFamily :=
  { links := .ofSize size, lists := List.replicate lists .empty }

/-- A list of the family; beyond the last one all lists are empty. -/
def list (f : ListFamily) (k : Nat) : IndexList := f.lists.getD k .empty

def items (f : ListFamily) (k : Nat) : List Nat := (f.list k).toList f.links

/-- The family with one list and the links replaced. -/
def put (f : ListFamily) (k : Nat) (next : IndexList × Links) : ListFamily :=
  { links := next.2, lists := f.lists.set k next.1 }

/-- Run an operation on an index, refused if there is no such index. -/
def withIndex {β : Type} (f : ListFamily) (i : Nat) (run : β) : Except Violation β :=
  if i < f.links.size then .ok run else .error .indexOutOfBounds

def pushBack (f : ListFamily) (k i : Nat) : Except Violation ListFamily :=
  f.withIndex i (f.put k ((f.list k).pushBack f.links i))

def unlink (f : ListFamily) (k i : Nat) : Except Violation ListFamily :=
  if (f.list k).isEmpty then .error .unlinkFromEmpty
  else f.withIndex i (f.put k ((f.list k).unlink f.links i))

def popFront (f : ListFamily) (k : Nat) : Except Violation (Option Nat × ListFamily) :=
  match (f.list k).head with
  | some i => (f.unlink k i).map fun f => (some i, f)
  | none => .ok (none, f)

/-- The index after an index on whichever list it is on. -/
def next (f : ListFamily) (i : Nat) : Except Violation (Option Nat) :=
  f.withIndex i (f.links.link i).next

end ListFamily

end Osal
