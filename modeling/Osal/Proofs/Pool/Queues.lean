import Mathlib.Logic.Function.Basic
import Osal.Proofs.Pool

/-!
# A pool as two queues

`SlotQueues` is what a pool stands for: a queue of free slots, the allocated slots in the order of their
allocation, what is in each slot, and how often each was released. `refines_queues`: whatever is asked of
a pool, it answers as the queues do, and its lists, marks, elements and handles are those of the queues
(`Pool.Mirrors`).
-/

namespace Osal

/-- The slots of a pool in two queues. -/
structure SlotQueues (α : Type) where
  capacity : Nat
  /-- The free slots, longest free first. -/
  free : List Nat
  /-- The allocated slots, in the order of their allocation. -/
  allocated : List Nat
  element : Nat → α
  /-- How often each slot was released. -/
  releases : Nat → Nat
  init : α → α
  equal : α → α → Bool

/-- What can be asked of a pool. A sweep comes with its visitor and the first state of that. -/
inductive PoolRequest (α : Type) : Type 1 where
  | allocate
  | free (h : Handle)
  | freeValue (probe : α)
  /-- Write an element through exclusive access to it. -/
  | set (h : Handle) (a : α)
  | sweep {σ : Type} (start : σ) (visit : Pool.Visitor σ α)

/-- What a pool answers. -/
inductive PoolAnswer : Type 1 where
  | issued (h : Handle)
  | done
  | refused (cause : Error)
  | broken (contract : Violation)
  /-- The last state of the visitor, and how many elements were released. -/
  | swept {σ : Type} (last : σ) (released : Nat)

def PoolAnswer.failed : PoolAnswer → Bool
  | .refused _ | .broken _ => true
  | _ => false

namespace SlotQueues

variable {α σ : Type}

def ofFn (capacity : Nat) (make : Nat → α) (init : α → α) (equal : α → α → Bool) : SlotQueues α :=
  { capacity, free := List.range capacity, allocated := [], element := fun i => init (make i)
    releases := fun _ => 0, init, equal }

/-- The handle of a slot: its number and, in one word, how often it was released. -/
def handleAt (q : SlotQueues α) (i : Nat) : Handle :=
  { index := i, generation := .ofNat (q.releases i) }

def entries (q : SlotQueues α) : List (Handle × α) :=
  q.allocated.map fun i => (q.handleAt i, q.element i)

def isLive (q : SlotQueues α) (h : Handle) : Bool :=
  decide (h.index ∈ q.allocated) && decide (q.handleAt h.index = h)

def findBy (q : SlotQueues α) (holds : α → Bool) : Option Handle :=
  (q.entries.find? fun entry => holds entry.2).map (·.1)

def put (q : SlotQueues α) (i : Nat) (a : α) : SlotQueues α :=
  { q with element := Function.update q.element i a }

/-- Move the first free slot, whose element is cleaned, to the end of the allocated ones. -/
def take (q : SlotQueues α) (i : Nat) : SlotQueues α :=
  { q.put i (q.init (q.element i)) with free := q.free.tail, allocated := q.allocated ++ [i] }

/-- Move an allocated slot, whose element is cleaned, to the end of the free ones. -/
def release (q : SlotQueues α) (i : Nat) : SlotQueues α :=
  { q.put i (q.init (q.element i)) with
    free := q.free ++ [i], allocated := q.allocated.erase i
    releases := Function.update q.releases i (q.releases i + 1) }

theorem releases_release (q : SlotQueues α) (i : Nat) :
    (q.release i).releases = Function.update q.releases i (q.releases i + 1) := rfl

/-- Show a slot to a visitor, and do as it says. -/
def visitAt (visit : Pool.Visitor σ α) : σ × Nat × SlotQueues α → Nat → σ × Nat × SlotQueues α
  | (s, released, q), i =>
    match visit s (q.handleAt i) (q.element i) with
    | (s, a, .keep) => (s, released, q.put i a)
    | (s, a, .release) => (s, released + 1, (q.put i a).release i)

/-- Visit the slots that are allocated now, in the order of their allocation. -/
def sweep (q : SlotQueues α) (s : σ) (visit : Pool.Visitor σ α) : σ × Nat × SlotQueues α :=
  q.allocated.foldl (visitAt visit) (s, 0, q)

def perform (q : SlotQueues α) : PoolRequest α → PoolAnswer × SlotQueues α
  | .allocate =>
    match q.free with
    | [] => (.refused (.exhausted q.capacity), q)
    | i :: _ => (.issued (q.handleAt i), q.take i)
  | .free h => if q.isLive h then (.done, q.release h.index) else (.refused .notFound, q)
  | .freeValue probe =>
    match q.findBy fun a => q.equal a probe with
    | some h => (.done, q.release h.index)
    | none => (.refused .notFound, q)
  | .set h a =>
    if q.isLive h then (.done, q.put h.index a)
    else (.broken (.staleHandle h.index h.generation), q)
  | .sweep start visit =>
    let (last, released, q) := q.sweep start visit
    (.swept last released, q)

def serve (q : SlotQueues α) : List (PoolRequest α) → List PoolAnswer × SlotQueues α
  | [] => ([], q)
  | request :: requests =>
    let (answer, q) := q.perform request
    let (answers, q) := serve q requests
    (answer :: answers, q)

end SlotQueues

namespace Pool

variable {α σ : Type}

/-- The answer of a pool, and the pool after it; a request that is refused leaves it as it was. -/
def perform (p : Pool α) : PoolRequest α → PoolAnswer × Pool α
  | .allocate =>
    match p.allocate with
    | .ok (h, p) => (.issued h, p)
    | .error e => (.refused e, p)
  | .free h =>
    match p.free h with
    | .ok p => (.done, p)
    | .error e => (.refused e, p)
  | .freeValue probe =>
    match p.freeValue probe with
    | .ok p => (.done, p)
    | .error e => (.refused e, p)
  | .set h a =>
    match p.set h a with
    | .ok p => (.done, p)
    | .error v => (.broken v, p)
  | .sweep start visit =>
    let (last, released, p) := p.sweep start visit
    (.swept last released, p)

def serve (p : Pool α) : List (PoolRequest α) → List PoolAnswer × Pool α
  | [] => ([], p)
  | request :: requests =>
    let (answer, p) := p.perform request
    let (answers, p) := serve p requests
    (answer :: answers, p)

/-! ## A pool and its queues -/

/-- The pool holds what the queues say. -/
structure Mirrors (p : Pool α) (q : SlotQueues α) : Prop where
  sound : p.Sound q.free q.allocated
  element : ∀ i < p.capacity, p.elements[i]? = some (q.element i)
  generation : ∀ i < p.capacity, (p.markAt i).generation = .ofNat (q.releases i)
  capacity : q.capacity = p.capacity
  init : q.init = p.init
  equal : q.equal = p.equal

variable {p : Pool α} {q : SlotQueues α} {h : Handle} {i : Nat}

theorem isLive_eq (p : Pool α) (h : Handle) :
    p.isLive h = ((p.markAt h.index).allocated && (p.markAt h.index).generation == h.generation) := by
  rw [isLive, markAt, Array.getD_eq_getD_getElem?]
  cases p.marks[h.index]? with
  | none => rfl
  | some mark => rfl

theorem getElem?_modify_update {elements : Array α} {element : Nat → α} {n : Nat}
    (h : ∀ j < n, elements[j]? = some (element j)) (i : Nat) (f : α → α) :
    ∀ j < n, (elements.modify i f)[j]? = some (Function.update element i (f (element i)) j) := by
  intro j hj
  rw [Array.getElem?_modify, h j hj]
  by_cases hji : j = i
  · rw [hji, if_pos rfl, Function.update_self]
    rfl
  · rw [if_neg (Ne.symm hji), Function.update_of_ne hji]

namespace Mirrors

theorem lt_of_mem (hm : p.Mirrors q) (hi : i ∈ q.allocated) : i < p.capacity :=
  hm.sound.lt_of_mem hi

theorem handleAt_eq (hm : p.Mirrors q) (hi : i < p.capacity) : p.handleAt i = q.handleAt i := by
  rw [handleAt, hm.generation i hi, SlotQueues.handleAt]

theorem entryAt_eq (hm : p.Mirrors q) (hi : i ∈ q.allocated) :
    p.entryAt i = some (q.handleAt i, q.element i) := by
  have hlt := hm.lt_of_mem hi
  rw [Pool.entryAt_eq (hm.element i hlt), hm.handleAt_eq hlt]

theorem toList_eq (hm : p.Mirrors q) : p.toList = q.entries := by
  rw [hm.sound.toList_eq, SlotQueues.entries, ← List.filterMap_eq_map]
  exact List.filterMap_congr fun i hi => hm.entryAt_eq hi

theorem isLive_eq (hm : p.Mirrors q) (h : Handle) : p.isLive h = q.isLive h := by
  rw [Pool.isLive_eq, SlotQueues.isLive, Bool.eq_iff_iff, Bool.and_eq_true, Bool.and_eq_true,
    hm.sound.marked, decide_eq_true_iff, decide_eq_true_iff, beq_iff_eq]
  refine and_congr_right fun hi => ?_
  rw [hm.generation _ (hm.lt_of_mem hi), SlotQueues.handleAt]
  obtain ⟨index, generation⟩ := h
  simp

theorem findBy_eq (hm : p.Mirrors q) (holds : α → Bool) : p.findBy holds = q.findBy holds := by
  rw [findBy, hm.toList_eq, SlotQueues.findBy]

theorem find_eq (hm : p.Mirrors q) (probe : α) :
    p.find probe = q.findBy fun a => q.equal a probe := by
  rw [find, hm.findBy_eq, hm.equal]

/-! ### What one change does to both -/

theorem put (hm : p.Mirrors q) (i : Nat) (f : α → α) :
    (p.modifyAt i f).Mirrors (q.put i (f (q.element i))) := by
  have hcapacity := capacity_modifyAt (p := p) (i := i) f
  refine ⟨hm.sound.modifyAt f, ?_, ?_, hm.capacity.trans hcapacity.symm, hm.init, hm.equal⟩
  · rw [hcapacity]
    exact getElem?_modify_update hm.element i f
  · rw [hcapacity]
    exact hm.generation

theorem take (hm : p.Mirrors q) {rest : List Nat} (hfree : q.free = i :: rest) :
    (p.take i).Mirrors (q.take i) := by
  have hsound := hm.sound
  rw [hfree] at hsound
  have htail : (q.take i).free = rest := congrArg List.tail hfree
  refine ⟨htail ▸ hsound.take, ?_, fun j hj => ?_, hm.capacity.trans capacity_take.symm, hm.init,
    hm.equal⟩
  · rw [capacity_take, SlotQueues.take, hm.init]
    exact getElem?_modify_update hm.element i p.init
  · have hsame : ((p.take i).handleAt j).generation = (p.handleAt j).generation :=
      congrArg Handle.generation handleAt_take
    exact hsame.trans (hm.generation j (capacity_take ▸ hj))

theorem release (hm : p.Mirrors q) (hi : i ∈ q.allocated) : (p.release i).Mirrors (q.release i) := by
  obtain ⟨before, after, hsplit⟩ := List.append_of_mem hi
  have hsound := hm.sound
  rw [hsplit] at hsound
  have hrest : (q.release i).allocated = before ++ after := by
    have hbefore : i ∉ before := fun hmem =>
      hsound.alloc_holds.notMem_rest (List.mem_append_left _ hmem)
    show q.allocated.erase i = before ++ after
    rw [hsplit, List.erase_append_right _ hbefore, List.erase_cons_head]
  refine ⟨hrest ▸ hsound.release, ?_, fun j hj => ?_, hm.capacity.trans capacity_release.symm,
    hm.init, hm.equal⟩
  · rw [capacity_release, SlotQueues.release, hm.init]
    exact getElem?_modify_update hm.element i p.init
  · rw [capacity_release] at hj
    rw [SlotQueues.releases_release]
    by_cases hji : j = i
    · subst hji
      have hlt : j < p.marks.size := hm.sound.marks_size ▸ hj
      simp [hlt, hm.generation j hj]
    · simp [hji, hm.generation j hj]

/-! ### A sweep -/

/-- The walk along the links visits the slots as the fold over the queue does. -/
theorem sweepFrom (visit : Visitor σ α) (done : List Nat) {rest : List Nat} {fuel n : Nat} {s : σ}
    (hm : p.Mirrors q) (hsplit : q.allocated = done ++ rest) (hfuel : rest.length ≤ fuel) :
    let walked := Pool.sweepFrom visit fuel rest.head? s n p
    let folded := rest.foldl (SlotQueues.visitAt visit) (s, n, q)
    walked.1 = folded.1 ∧ walked.2.1 = folded.2.1 ∧ walked.2.2.Mirrors folded.2.2 := by
  induction rest generalizing p q done fuel n s with
  | nil =>
    have hstop : Pool.sweepFrom visit fuel none s n p = (s, n, p) := by cases fuel <;> rfl
    rw [List.head?_nil, hstop]
    exact ⟨rfl, rfl, hm⟩
  | cons i rest ih =>
    obtain ⟨fuel, rfl⟩ : ∃ m, fuel = m + 1 := ⟨fuel - 1, by simp at hfuel; omega⟩
    have hfuel : rest.length ≤ fuel := by simpa using hfuel
    have hi : i ∈ q.allocated := by rw [hsplit]; simp
    have hlt := hm.lt_of_mem hi
    have hholds := hm.sound.alloc_holds
    rw [hsplit] at hholds
    have hnext : (p.links.link i).next = rest.head? := by rw [hholds.next_eq]
    rw [List.head?_cons, Pool.sweepFrom, List.foldl_cons, SlotQueues.visitAt]
    simp only [hm.element i hlt, hm.handleAt_eq hlt, hnext]
    generalize visit s (q.handleAt i) (q.element i) = visited
    obtain ⟨s, a, verdict⟩ := visited
    have hput := hm.put i fun _ => a
    cases verdict with
    | keep => exact ih (done ++ [i]) hput (by simpa [SlotQueues.put] using hsplit) hfuel
    | release =>
      refine ih done (hput.release hi) ?_ hfuel
      have hnotin : i ∉ done := fun hmem => hholds.notMem_rest (List.mem_append_left _ hmem)
      show q.allocated.erase i = done ++ rest
      rw [hsplit, List.erase_append_right _ hnotin, List.erase_cons_head]

theorem sweep (hm : p.Mirrors q) (s : σ) (visit : Visitor σ α) :
    (p.sweep s visit).1 = (q.sweep s visit).1 ∧ (p.sweep s visit).2.1 = (q.sweep s visit).2.1 ∧
      (p.sweep s visit).2.2.Mirrors (q.sweep s visit).2.2 := by
  have hlen : q.allocated.length ≤ p.capacity := by
    have := hm.sound.length_add
    omega
  rw [Pool.sweep, hm.sound.alloc_holds.head]
  exact hm.sweepFrom visit [] rfl hlen

/-! ### Requests -/

theorem mem_of_isLive (hm : p.Mirrors q) (hlive : p.isLive h = true) : h.index ∈ q.allocated :=
  (hm.sound.marked _).1 (allocated_of_isLive hlive)

theorem mem_of_find (hm : p.Mirrors q) {probe : α} (hfind : p.find probe = some h) :
    p.isLive h = true := by
  obtain ⟨front, a, back, hlist, -⟩ := split_of_findBy hfind
  have hmem : (h, a) ∈ p.toList := hlist ▸ List.mem_append_right _ List.mem_cons_self
  exact (hm.sound.isLive_of_mem hmem).1

theorem perform (hm : p.Mirrors q) (request : PoolRequest α) :
    (p.perform request).1 = (q.perform request).1 ∧
      (p.perform request).2.Mirrors (q.perform request).2 := by
  cases request with
  | allocate =>
    rw [Pool.perform, SlotQueues.perform]
    cases hfree : q.free with
    | nil =>
      have hhead := hm.sound.free_holds.head
      rw [hfree] at hhead
      rw [allocate_of_empty hhead]
      exact ⟨congrArg (fun n => PoolAnswer.refused (.exhausted n)) hm.capacity.symm, hm⟩
    | cons i rest =>
      have hholds := hm.sound.free_holds
      rw [hfree] at hholds
      rw [allocate_of_head hholds.head]
      have hlt : i < p.capacity := hm.sound.links_size ▸ hholds.lt i List.mem_cons_self
      exact ⟨congrArg _ (hm.handleAt_eq hlt), hm.take hfree⟩
  | free h =>
    rw [Pool.perform, SlotQueues.perform, Pool.free, ← hm.isLive_eq]
    cases hlive : p.isLive h with
    | true => exact ⟨rfl, hm.release (hm.mem_of_isLive hlive)⟩
    | false => exact ⟨rfl, hm⟩
  | freeValue probe =>
    rw [Pool.perform, SlotQueues.perform, Pool.freeValue, ← hm.find_eq]
    cases hfind : p.find probe with
    | some h =>
      have hlive := hm.mem_of_find hfind
      dsimp only
      rw [show p.free h = .ok (p.release h.index) from if_pos hlive]
      exact ⟨rfl, hm.release (hm.mem_of_isLive hlive)⟩
    | none => exact ⟨rfl, hm⟩
  | set h a =>
    rw [Pool.perform, SlotQueues.perform, Pool.set, ← hm.isLive_eq]
    cases hlive : p.isLive h with
    | true => exact ⟨rfl, hm.put h.index fun _ => a⟩
    | false => exact ⟨rfl, hm⟩
  | sweep start visit =>
    obtain ⟨hlast, hreleased, hswept⟩ := hm.sweep start visit
    simp only [Pool.perform, SlotQueues.perform]
    exact ⟨by rw [hlast, hreleased], hswept⟩

theorem serve (hm : p.Mirrors q) (requests : List (PoolRequest α)) :
    (p.serve requests).1 = (q.serve requests).1 ∧
      (p.serve requests).2.Mirrors (q.serve requests).2 := by
  induction requests generalizing p q with
  | nil => exact ⟨rfl, hm⟩
  | cons request requests ih =>
    obtain ⟨hanswer, hnext⟩ := hm.perform request
    obtain ⟨hanswers, hlast⟩ := ih hnext
    exact ⟨congrArg₂ List.cons hanswer hanswers, hlast⟩

end Mirrors

/-! ### The start -/

theorem fields_ofFn {capacity : Nat} {make : Nat → α} {init : α → α} {equal : α → α → Bool}
    (hp : ofFn capacity make init equal = .ok p) :
    p.elements = Array.ofFn (fun i : Fin capacity => init (make i)) ∧
      p.marks = Array.replicate capacity {} := by
  rw [ofFn] at hp
  split at hp
  · cases hp
  · obtain rfl := Except.ok.inj hp
    exact ⟨rfl, rfl⟩

theorem mirrors_ofFn {capacity : Nat} (hcap : 0 < capacity) (make : Nat → α) (init : α → α)
    (equal : α → α → Bool) :
    ∃ p, ofFn capacity make init equal = .ok p ∧
      p.Mirrors (SlotQueues.ofFn capacity make init equal) := by
  obtain ⟨p, hp, hsound, hcapacity, hinit, hequal⟩ := ofFn_spec hcap make init equal
  obtain ⟨helements, hmarks⟩ := fields_ofFn hp
  refine ⟨p, hp, hsound, fun i hi => ?_, fun i hi => ?_, hcapacity.symm, hinit.symm, hequal.symm⟩
  · rw [hcapacity] at hi
    rw [helements, Array.getElem?_ofFn, dif_pos hi]
    rfl
  · rw [hcapacity] at hi
    simp [markAt, hmarks, hi, SlotQueues.ofFn]

theorem mirrors_of_ofFn {capacity : Nat} {make : Nat → α} {init : α → α} {equal : α → α → Bool}
    (hp : ofFn capacity make init equal = .ok p) :
    p.Mirrors (SlotQueues.ofFn capacity make init equal) := by
  have hcap : 0 < capacity := by
    rw [ofFn] at hp
    split at hp
    · cases hp
    · omega
  obtain ⟨start, hstart, hm⟩ := mirrors_ofFn hcap make init equal
  exact Except.ok.inj (hstart.symm.trans hp) ▸ hm

/-- Every sound pool is mirrored by queues; `blank` stands in the slots that there are not. -/
theorem Sound.mirrors {free alloc : List Nat} (h : p.Sound free alloc) (blank : α) :
    ∃ q, p.Mirrors q := by
  refine ⟨{ capacity := p.capacity, free, allocated := alloc
            element := fun i => p.elements[i]?.getD blank
            releases := fun i => (p.markAt i).generation.toNat
            init := p.init, equal := p.equal }, h, fun i hi => ?_, fun i _ => ?_, rfl, rfl, rfl⟩
  · obtain ⟨a, ha⟩ : ∃ a, p.elements[i]? = some a := ⟨_, Array.getElem?_eq_getElem hi⟩
    simp only [ha, Option.getD_some]
  · exact UInt32.ofNat_toNat.symm

/-! ## What the queues say of a pool -/

/-- The slots that a pool goes to without being given their handle: the ends of its lists and the
neighbours of slots. -/
inductive Names (p : Pool α) : Nat → Prop where
  | head {l : IndexList} (hl : l = p.freeList ∨ l = p.allocatedList) {i : Nat}
      (hi : l.head = some i) : Names p i
  | tail {l : IndexList} (hl : l = p.freeList ∨ l = p.allocatedList) {i : Nat}
      (hi : l.tail = some i) : Names p i
  | prev {j i : Nat} (hi : (p.links.link j).prev = some i) : Names p i
  | next {j i : Nat} (hi : (p.links.link j).next = some i) : Names p i

theorem Sound.lt_of_names {free alloc : List Nat} (hs : p.Sound free alloc) (hi : p.Names i) :
    i < p.capacity := by
  have hlist : ∀ l, l = p.freeList ∨ l = p.allocatedList →
      ∃ xs, l.Holds p.links xs := by
    rintro l (rfl | rfl)
    · exact ⟨free, hs.free_holds⟩
    · exact ⟨alloc, hs.alloc_holds⟩
  have hcell : ∀ j, (p.links.link j).prev = some i ∨ (p.links.link j).next = some i →
      i < p.links.size := by
    intro j hj
    by_cases hlt : j < p.links.size
    · rcases hs.covers j (hs.links_size ▸ hlt) with hmem | hmem
      · exact hs.free_holds.lt i (hs.free_holds.mem_of_neighbour hmem hj)
      · exact hs.alloc_holds.lt i (hs.alloc_holds.mem_of_neighbour hmem hj)
    · have hblank : p.links.link j = {} := by
        have : ¬ j < p.links.cells.size := hlt
        simp [Links.link, this]
      simp [hblank] at hj
  rw [← hs.links_size]
  cases hi with
  | head hl hi =>
    obtain ⟨xs, hholds⟩ := hlist _ hl
    exact hholds.lt i (List.mem_of_head? (hholds.head ▸ hi))
  | tail hl hi =>
    obtain ⟨xs, hholds⟩ := hlist _ hl
    exact hholds.lt i (List.mem_of_getLast? (hholds.tail ▸ hi))
  | prev hi => exact hcell _ (.inl hi)
  | next hi => exact hcell _ (.inr hi)

/-- All that can be seen of a pool is what the queues say. -/
structure Agrees (p : Pool α) (q : SlotQueues α) : Prop where
  free_holds : p.freeList.Holds p.links q.free
  alloc_holds : p.allocatedList.Holds p.links q.allocated
  /-- No slot is queued twice, and none is missing. -/
  parts : (q.free ++ q.allocated).Perm (List.range p.capacity)
  marked : ∀ i, (p.markAt i).allocated = true ↔ i ∈ q.allocated
  element : ∀ i < p.capacity, p.elements[i]? = some (q.element i)
  handleAt : ∀ i < p.capacity, p.handleAt i = q.handleAt i
  toList : p.toList = q.entries
  findBy : ∀ holds, p.findBy holds = q.findBy holds
  find : ∀ probe, p.find probe = q.findBy fun a => q.equal a probe
  isLive : ∀ h, p.isLive h = q.isLive h
  get? : ∀ h, p.get? h = if q.isLive h then some (q.element h.index) else none
  /-- What is refused changes nothing. -/
  unchanged : ∀ request, (p.perform request).1.failed = true → (p.perform request).2 = p
  /-- Every slot has its links, its mark and its element. -/
  sizes : p.links.size = p.capacity ∧ p.marks.size = p.capacity ∧ p.elements.size = p.capacity
  /-- No slot is beyond them that the pool goes to, by its links or by a handle. -/
  named : ∀ i, p.Names i → i < p.capacity
  live : ∀ h, p.isLive h = true → h.index < p.capacity

theorem perform_failed {request : PoolRequest α} (hfailed : (p.perform request).1.failed = true) :
    (p.perform request).2 = p := by
  cases request with
  | sweep start visit => cases hfailed
  | _ =>
    simp only [perform] at hfailed ⊢
    split at hfailed
    · cases hfailed
    · rfl

theorem Mirrors.agrees (hm : p.Mirrors q) : p.Agrees q where
  free_holds := hm.sound.free_holds
  alloc_holds := hm.sound.alloc_holds
  parts := hm.sound.parts
  marked := hm.sound.marked
  element := hm.element
  handleAt := fun _ => hm.handleAt_eq
  toList := hm.toList_eq
  findBy := hm.findBy_eq
  find := hm.find_eq
  isLive := hm.isLive_eq
  get? := fun h => by
    rw [Pool.get?, ← hm.isLive_eq]
    by_cases hlive : p.isLive h = true
    · rw [if_pos hlive, if_pos hlive, hm.element _ (hm.lt_of_mem (hm.mem_of_isLive hlive))]
    · rw [if_neg hlive, if_neg hlive]
  unchanged := fun _ => perform_failed
  sizes := ⟨hm.sound.links_size, hm.sound.marks_size, rfl⟩
  named := fun _ => hm.sound.lt_of_names
  live := fun _ hlive => hm.lt_of_mem (hm.mem_of_isLive hlive)

/-- A pool is its two queues: it answers every run of requests as they do, and agrees with them after
it. -/
theorem refines_queues {capacity : Nat} (hcap : 0 < capacity) (make : Nat → α) (init : α → α)
    (equal : α → α → Bool) :
    ∃ p, ofFn capacity make init equal = .ok p ∧ ∀ requests : List (PoolRequest α),
      let queues := (SlotQueues.ofFn capacity make init equal).serve requests
      (p.serve requests).1 = queues.1 ∧ (p.serve requests).2.Agrees queues.2 := by
  obtain ⟨p, hp, hm⟩ := mirrors_ofFn hcap make init equal
  refine ⟨p, hp, fun requests => ?_⟩
  obtain ⟨hanswers, hlast⟩ := hm.serve requests
  exact ⟨hanswers, hlast.agrees⟩

/-- Two slots, filled and refilled, with an equality under which nothing equals itself. -/
theorem refines_queues_irreflexive :
    ∃ p, ofFn 2 (fun i => i) (fun _ => 0) (fun a probe => decide (a < probe)) = .ok p ∧
      let served := p.serve [.allocate, .set ⟨0, 0⟩ 7, .allocate, .allocate, .freeValue 7,
        .allocate, .free ⟨1, 0⟩, .freeValue 7]
      served.1 = [.issued ⟨0, 0⟩, .done, .issued ⟨1, 0⟩, .refused (.exhausted 2), .done,
        .issued ⟨1, 1⟩, .refused .notFound, .done] ∧
      served.2.toList = [(⟨0, 0⟩, 7)] ∧ served.2.freeSlots = [1] := by
  obtain ⟨p, hp, hruns⟩ := refines_queues (by decide : 0 < 2) (fun i => i) (fun _ => 0)
    (fun a probe => decide (a < probe))
  obtain ⟨hanswers, hagrees⟩ := hruns [.allocate, .set ⟨0, 0⟩ 7, .allocate, .allocate,
    .freeValue 7, .allocate, .free ⟨1, 0⟩, .freeValue 7]
  exact ⟨p, hp, hanswers, hagrees.toList, hagrees.free_holds.toList_eq⟩

end Pool

end Osal
