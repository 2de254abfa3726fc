import Osal.Pool
import Osal.Proofs.IndexList

/-!
# What a pool holds

`Pool.Sound p free alloc`: the two lists of the pool hold the slots `free` and `alloc`, which part all
slots between them, and exactly the slots in `alloc` are marked as allocated. Taking and releasing a
slot move it from one list to the other and touch the element and the mark of no other slot; a sweep
is a fold over the allocated entries (`sweep_spec`).
-/

namespace Osal

namespace Pool

variable {α σ : Type} {p : Pool α} {free alloc : List Nat} {i j : Nat}

/-! ### Single slots -/

/-- The element of a slot with the handle it has now. -/
def entryAt (p : Pool α) (i : Nat) : Option (Handle × α) :=
  p.elements[i]?.map fun a => (p.handleAt i, a)

theorem entryAt_eq {a : α} (h : p.elements[i]? = some a) : p.entryAt i = some (p.handleAt i, a) := by
  rw [entryAt, h, Option.map_some]

theorem toList_eq_filterMap (p : Pool α) : p.toList = p.allocatedSlots.filterMap p.entryAt := rfl

@[simp] theorem capacity_modifyAt (f : α → α) : (p.modifyAt i f).capacity = p.capacity := by
  simp [capacity, modifyAt]

@[simp] theorem entryAt_modifyAt_ne (f : α → α) (h : j ≠ i) : (p.modifyAt i f).entryAt j = p.entryAt j := by
  simp [entryAt, modifyAt, handleAt, markAt, Array.getElem?_modify, Ne.symm h]

theorem entryAt_modifyAt_self {a : α} (f : α → α) (h : p.elements[i]? = some a) :
    (p.modifyAt i f).entryAt i = some (p.handleAt i, f a) := by
  simp [entryAt, modifyAt, handleAt, markAt, Array.getElem?_modify, h]

def take (p : Pool α) (i : Nat) : Pool α :=
  let (freeList, links) := p.freeList.unlink p.links i
  let (allocatedList, links) := p.allocatedList.pushBack links i
  { p with
    elements := p.elements.modify i p.init
    marks := p.marks.modify i fun mark => { mark with allocated := true }
    links, freeList, allocatedList }

theorem allocate_of_head (h : p.freeList.head = some i) :
    p.allocate = .ok (p.handleAt i, p.take i) := by
  rw [allocate, IndexList.popFront, h]
  rfl

theorem allocate_of_empty (h : p.freeList.head = none) :
    p.allocate = .error (.exhausted p.capacity) := by
  rw [allocate, IndexList.popFront, h]
  rfl

@[simp] theorem capacity_take : (p.take i).capacity = p.capacity := by
  simp [capacity, take]

@[simp] theorem capacity_release : (p.release i).capacity = p.capacity := by
  simp [capacity, release]

@[simp] theorem markAt_take_ne (h : j ≠ i) : (p.take i).markAt j = p.markAt j := by
  simp [markAt, take, Array.getElem?_modify, Ne.symm h]

@[simp] theorem markAt_release_ne (h : j ≠ i) : (p.release i).markAt j = p.markAt j := by
  simp [markAt, release, Array.getElem?_modify, Ne.symm h]

@[simp] theorem markAt_take_self (h : i < p.marks.size) :
    (p.take i).markAt i = { p.markAt i with allocated := true } := by
  simp [markAt, take, Array.getElem_modify, h]

@[simp] theorem markAt_release_self (h : i < p.marks.size) :
    (p.release i).markAt i = { generation := (p.markAt i).generation + 1, allocated := false } := by
  simp [markAt, release, Array.getElem_modify, h]

@[simp] theorem handleAt_take : (p.take i).handleAt j = p.handleAt j := by
  by_cases h : j = i
  · subst h
    by_cases hlt : j < p.marks.size
    · simp [handleAt, hlt]
    · simp [handleAt, markAt, take, hlt]
  · simp [handleAt, h]

@[simp] theorem entryAt_take_ne (h : j ≠ i) : (p.take i).entryAt j = p.entryAt j := by
  have helement : (p.take i).elements[j]? = p.elements[j]? := by
    simp [take, Array.getElem?_modify, Ne.symm h]
  simp [entryAt, helement]

theorem entryAt_take_self {a : α} (h : p.elements[i]? = some a) :
    (p.take i).entryAt i = some (p.handleAt i, p.init a) := by
  have helement : (p.take i).elements[i]? = some (p.init a) := by
    simp [take, Array.getElem?_modify, h]
  simp [entryAt, helement]

@[simp] theorem entryAt_release_ne (h : j ≠ i) : (p.release i).entryAt j = p.entryAt j := by
  have helement : (p.release i).elements[j]? = p.elements[j]? := by
    simp [release, Array.getElem?_modify, Ne.symm h]
  simp [entryAt, helement, handleAt, h]

/-! ### The invariant -/

/-- The slots are parted into free and allocated ones, and the lists and marks say which. -/
structure Sound (p : Pool α) (free alloc : List Nat) : Prop where
  free_holds : p.freeList.Holds p.links free
  alloc_holds : p.allocatedList.Holds p.links alloc
  disjoint : ∀ i ∈ free, i ∉ alloc
  covers : ∀ i < p.capacity, i ∈ free ∨ i ∈ alloc
  links_size : p.links.size = p.capacity
  marks_size : p.marks.size = p.capacity
  marked : ∀ i, (p.markAt i).allocated = true ↔ i ∈ alloc

theorem Sound.allocatedSlots_eq (h : p.Sound free alloc) : p.allocatedSlots = alloc :=
  h.alloc_holds.toList_eq

theorem Sound.freeSlots_eq (h : p.Sound free alloc) : p.freeSlots = free :=
  h.free_holds.toList_eq

theorem Sound.toList_eq (h : p.Sound free alloc) : p.toList = alloc.filterMap p.entryAt := by
  rw [toList_eq_filterMap, h.allocatedSlots_eq]

theorem Sound.lt_of_mem (h : p.Sound free alloc) (hi : i ∈ alloc) : i < p.capacity :=
  h.links_size ▸ h.alloc_holds.lt i hi

theorem Sound.element (h : p.Sound free alloc) (hi : i ∈ alloc) :
    ∃ a, p.elements[i]? = some a :=
  ⟨_, Array.getElem?_eq_getElem (h.lt_of_mem hi)⟩

theorem Sound.map_index_toList (h : p.Sound free alloc) :
    p.toList.map (fun entry => entry.1.index) = alloc := by
  rw [h.toList_eq, List.map_filterMap]
  have hindex : ∀ i ∈ alloc, (p.entryAt i).map (fun entry => entry.1.index) = some i := by
    intro i hi
    obtain ⟨a, ha⟩ := h.element hi
    rw [entryAt_eq ha]
    rfl
  rw [List.filterMap_congr hindex, List.filterMap_some]

theorem Sound.nodup_handles (h : p.Sound free alloc) : (p.toList.map (·.1)).Nodup := by
  have hindices : ((p.toList.map (·.1)).map (·.index)).Nodup := by
    rw [List.map_map]
    exact h.map_index_toList ▸ h.alloc_holds.nodup
  exact hindices.of_map _

theorem Sound.length_toList (h : p.Sound free alloc) : p.toList.length = alloc.length := by
  rw [← h.map_index_toList, List.length_map]

theorem Sound.size_eq (h : p.Sound free alloc) : p.size = p.toList.length := by
  rw [h.length_toList, size, h.alloc_holds.length]

theorem Sound.parts (h : p.Sound free alloc) : (free ++ alloc).Perm (List.range p.capacity) := by
  have hnodup : (free ++ alloc).Nodup := List.nodup_append.2
    ⟨h.free_holds.nodup, h.alloc_holds.nodup, fun i hi j hj heq => h.disjoint i hi (heq ▸ hj)⟩
  refine (List.perm_ext_iff_of_nodup hnodup List.nodup_range).2 fun i => ?_
  rw [List.mem_append, List.mem_range]
  constructor
  · rintro (hi | hi)
    · exact h.links_size ▸ h.free_holds.lt i hi
    · exact h.lt_of_mem hi
  · exact h.covers i

theorem Sound.length_add (h : p.Sound free alloc) : free.length + alloc.length = p.capacity := by
  simpa using h.parts.length_eq

theorem Sound.isExhausted_iff (h : p.Sound free alloc) :
    p.isExhausted = true ↔ p.toList.length = p.capacity := by
  rw [isExhausted, h.free_holds.isEmpty_iff, h.length_toList, ← h.length_add]
  constructor
  · rintro rfl
    simp
  · intro hlen
    exact List.eq_nil_of_length_eq_zero (by omega)

theorem Sound.isLive_of_mem (h : p.Sound free alloc) {entry : Handle × α} (hmem : entry ∈ p.toList) :
    p.isLive entry.1 = true ∧ entry.1.index ∈ alloc ∧ p.entryAt entry.1.index = some entry := by
  rw [h.toList_eq, List.mem_filterMap] at hmem
  obtain ⟨i, hi, hentry⟩ := hmem
  obtain ⟨a, ha⟩ := h.element hi
  have hlt : i < p.marks.size := h.marks_size ▸ h.lt_of_mem hi
  have hmark : p.marks[i]? = some (p.markAt i) := by
    simp [markAt, hlt]
  have hallocated := (h.marked i).2 hi
  obtain rfl : (p.handleAt i, a) = entry := by
    rw [entryAt_eq ha] at hentry
    exact Option.some.inj hentry
  refine ⟨?_, hi, hentry⟩
  simp [isLive, handleAt, hmark, hallocated]

theorem Sound.get?_of_mem (h : p.Sound free alloc) {entry : Handle × α} (hmem : entry ∈ p.toList) :
    p.get? entry.1 = some entry.2 := by
  obtain ⟨hlive, hi, hentry⟩ := h.isLive_of_mem hmem
  obtain ⟨a, ha⟩ := h.element hi
  rw [entryAt_eq ha, Option.some.injEq] at hentry
  rw [get?, if_pos hlive, ha, ← hentry]

/-! ### Operations -/

theorem Sound.take (h : p.Sound (i :: free) alloc) : (p.take i).Sound free (alloc ++ [i]) := by
  obtain ⟨hfree, halloc⟩ := IndexList.holds_move [] free h.free_holds h.alloc_holds h.disjoint
  have hlt : i < p.marks.size := by
    rw [h.marks_size, ← h.links_size]
    exact h.free_holds.lt i List.mem_cons_self
  refine ⟨hfree, halloc, ?_, ?_, ?_, ?_, ?_⟩
  · intro j hj hmem
    rcases List.mem_append.1 hmem with hmem | hmem
    · exact h.disjoint j (List.mem_cons_of_mem _ hj) hmem
    · obtain rfl := List.mem_singleton.1 hmem
      exact (List.nodup_cons.1 h.free_holds.nodup).1 hj
  · intro j hj
    rcases h.covers j (by simpa using hj) with hmem | hmem
    · rcases List.mem_cons.1 hmem with rfl | hmem
      · exact Or.inr (List.mem_append_right _ List.mem_cons_self)
      · exact Or.inl hmem
    · exact Or.inr (List.mem_append_left _ hmem)
  · rw [capacity_take, ← h.links_size]
    exact IndexList.size_pushBack.trans IndexList.size_unlink
  · rw [capacity_take, ← h.marks_size]
    exact Array.size_modify
  · intro j
    by_cases hj : j = i
    · subst hj
      simp [hlt]
    · simp [hj, h.marked]

theorem Sound.release {before after : List Nat} (h : p.Sound free (before ++ i :: after)) :
    (p.release i).Sound (free ++ [i]) (before ++ after) := by
  have hdisj : ∀ j ∈ before ++ i :: after, j ∉ free := fun j hj hmem => h.disjoint j hmem hj
  obtain ⟨halloc, hfree⟩ := IndexList.holds_move before after h.alloc_holds h.free_holds hdisj
  have hsplit : ∀ j, j ∈ before ++ i :: after ↔ j = i ∨ j ∈ before ++ after := by
    intro j
    rw [List.mem_append, List.mem_cons, List.mem_append]
    tauto
  have hi := h.alloc_holds.notMem_rest
  have hlt : i < p.marks.size := by
    rw [h.marks_size]
    exact h.lt_of_mem ((hsplit i).2 (Or.inl rfl))
  refine ⟨hfree, halloc, ?_, ?_, ?_, ?_, ?_⟩
  · intro j hj hmem
    rcases List.mem_append.1 hj with hj | hj
    · exact h.disjoint j hj ((hsplit j).2 (Or.inr hmem))
    · exact hi (List.mem_singleton.1 hj ▸ hmem)
  · intro j hj
    rcases h.covers j (by simpa using hj) with hmem | hmem
    · exact Or.inl (List.mem_append_left _ hmem)
    · rcases (hsplit j).1 hmem with rfl | hmem
      · exact Or.inl (List.mem_append_right _ List.mem_cons_self)
      · exact Or.inr hmem
  · rw [capacity_release, ← h.links_size]
    exact IndexList.size_pushBack.trans IndexList.size_unlink
  · rw [capacity_release, ← h.marks_size]
    exact Array.size_modify
  · intro j
    by_cases hj : j = i
    · subst hj
      simpa [hlt] using hi
    · simp [hj, h.marked]

theorem Sound.modifyAt (h : p.Sound free alloc) (f : α → α) : (p.modifyAt i f).Sound free alloc :=
  ⟨h.free_holds, h.alloc_holds, h.disjoint, by simpa using h.covers,
    h.links_size.trans (capacity_modifyAt f).symm, h.marks_size.trans (capacity_modifyAt f).symm,
    h.marked⟩

/-! ### The entries after an operation -/

theorem Sound.toList_take {a : α} (h : p.Sound (i :: free) alloc) (ha : p.elements[i]? = some a) :
    (p.take i).toList = p.toList ++ [(p.handleAt i, p.init a)] := by
  have hi : i ∉ alloc := h.disjoint i List.mem_cons_self
  have hkept : ∀ j ∈ alloc, (p.take i).entryAt j = p.entryAt j := fun j hj =>
    entryAt_take_ne (ne_of_mem_of_not_mem hj hi)
  rw [h.take.toList_eq, h.toList_eq, List.filterMap_append, List.filterMap_congr hkept]
  simp [entryAt_take_self ha]

theorem Sound.toList_release {before after : List Nat} (h : p.Sound free (before ++ i :: after)) :
    (p.release i).toList = before.filterMap p.entryAt ++ after.filterMap p.entryAt := by
  have hi := h.alloc_holds.notMem_rest
  have hkept : ∀ j ∈ before ++ after, (p.release i).entryAt j = p.entryAt j := fun j hj =>
    entryAt_release_ne (ne_of_mem_of_not_mem hj hi)
  rw [h.release.toList_eq, List.filterMap_congr hkept, List.filterMap_append]

theorem Sound.toList_modifyAt {before after : List Nat} {a : α} (f : α → α)
    (h : p.Sound free (before ++ i :: after)) (ha : p.elements[i]? = some a) :
    (p.modifyAt i f).toList =
      before.filterMap p.entryAt ++ (p.handleAt i, f a) :: after.filterMap p.entryAt := by
  have hi := h.alloc_holds.notMem_rest
  have hkept : ∀ j ∈ before ++ after, (p.modifyAt i f).entryAt j = p.entryAt j := fun j hj =>
    entryAt_modifyAt_ne f (ne_of_mem_of_not_mem hj hi)
  rw [(h.modifyAt f).toList_eq, List.filterMap_append, List.filterMap_cons,
    entryAt_modifyAt_self f ha]
  rw [List.filterMap_congr fun j hj => hkept j (List.mem_append_left _ hj),
    List.filterMap_congr fun j hj => hkept j (List.mem_append_right _ hj)]

theorem Sound.toList_fill (h : p.Sound (i :: free) alloc) (a : α) :
    ((p.take i).modifyAt i fun _ => a).toList = p.toList ++ [(p.handleAt i, a)] := by
  have htaken := h.take
  obtain ⟨old, hold⟩ := htaken.element (i := i) (by simp)
  have hkept : ∀ j ∈ alloc, (p.take i).entryAt j = p.entryAt j := fun j hj =>
    entryAt_take_ne (ne_of_mem_of_not_mem hj (h.disjoint i List.mem_cons_self))
  rw [Sound.toList_modifyAt (fun _ => a) htaken hold, List.filterMap_congr hkept, ← h.toList_eq,
    List.filterMap_nil, handleAt_take]

theorem Sound.split_of_mem (h : p.Sound free alloc) {entry : Handle × α} (hmem : entry ∈ p.toList) :
    ∃ before after, alloc = before ++ entry.1.index :: after ∧
      p.toList = before.filterMap p.entryAt ++ entry :: after.filterMap p.entryAt := by
  obtain ⟨-, hi, hentry⟩ := h.isLive_of_mem hmem
  obtain ⟨before, after, hsplit⟩ := List.append_of_mem hi
  refine ⟨before, after, hsplit, ?_⟩
  rw [h.toList_eq, hsplit, List.filterMap_append, List.filterMap_cons, hentry]

theorem Sound.free_of_split (h : p.Sound free alloc) {front back : List (Handle × α)}
    {entry : Handle × α} (hlist : p.toList = front ++ entry :: back) :
    p.free entry.1 = .ok (p.release entry.1.index) ∧
      (p.release entry.1.index).toList = front ++ back ∧
      ∃ free' alloc', (p.release entry.1.index).Sound free' alloc' := by
  let slots (entries : List (Handle × α)) : List Nat := entries.map fun e => e.1.index
  have hslots : ∀ entries, (∀ e ∈ entries, e ∈ p.toList) →
      (slots entries).filterMap p.entryAt = entries := by
    intro entries hmem
    have hentry : ∀ e ∈ entries, (p.entryAt ∘ fun e => e.1.index) e = some e := fun e he =>
      (h.isLive_of_mem (hmem e he)).2.2
    rw [List.filterMap_map, List.filterMap_congr hentry, List.filterMap_some]
  have halloc : alloc = slots front ++ entry.1.index :: slots back := by
    rw [← h.map_index_toList, hlist, List.map_append, List.map_cons]
  have hlive : p.isLive entry.1 = true := by
    refine (h.isLive_of_mem ?_).1
    rw [hlist]
    exact List.mem_append_right _ List.mem_cons_self
  rw [halloc] at h
  refine ⟨?_, ?_, _, _, h.release⟩
  · rw [Pool.free, if_pos hlive]
  · rw [h.toList_release]
    refine congrArg₂ (· ++ ·) (hslots front ?_) (hslots back ?_)
    · intro e he
      rw [hlist]
      exact List.mem_append_left _ he
    · intro e he
      rw [hlist]
      exact List.mem_append_right _ (List.mem_cons_of_mem _ he)

theorem Sound.free_taken (h : p.Sound (i :: free) alloc) :
    ∃ p', (p.take i).free (p.handleAt i) = .ok p' ∧ p'.toList = p.toList ∧
      p'.capacity = p.capacity ∧ ∃ free' alloc', p'.Sound free' alloc' := by
  have hi : i < p.capacity := h.links_size ▸ h.free_holds.lt i List.mem_cons_self
  have hlist := h.toList_take (Array.getElem?_eq_getElem hi)
  obtain ⟨hfree, hkept, hsound⟩ := h.take.free_of_split hlist
  rw [List.append_nil] at hkept
  exact ⟨_, hfree, hkept, capacity_release.trans capacity_take, hsound⟩

theorem Sound.allocate_cases (h : p.Sound free alloc) :
    (p.toList.length = p.capacity ∧ p.allocate = .error (.exhausted p.capacity)) ∨
      (p.toList.length < p.capacity ∧ ∃ i rest, free = i :: rest ∧
        p.allocate = .ok (p.handleAt i, p.take i)) := by
  have hlen := h.length_add
  rw [← h.length_toList] at hlen
  cases free with
  | nil => exact Or.inl ⟨by simpa using hlen, allocate_of_empty h.free_holds.head⟩
  | cons i rest =>
    rw [List.length_cons] at hlen
    exact Or.inr ⟨by omega, i, rest, rfl, allocate_of_head h.free_holds.head⟩

/-! ### Searching -/

theorem findBy_eq_none_iff {holds : α → Bool} :
    p.findBy holds = none ↔ ∀ entry ∈ p.toList, holds entry.2 = false := by
  simp [findBy]

theorem split_of_findBy {holds : α → Bool} {slot : Handle} (hfind : p.findBy holds = some slot) :
    ∃ front a back, p.toList = front ++ (slot, a) :: back ∧ holds a = true ∧
      ∀ entry ∈ front, holds entry.2 = false := by
  obtain ⟨⟨_, a⟩, hfound, rfl⟩ := Option.map_eq_some_iff.1 hfind
  obtain ⟨hholds, front, back, hlist, hfront⟩ := List.find?_eq_some_iff_append.1 hfound
  exact ⟨front, a, back, hlist, hholds, fun entry hentry => by simpa using hfront entry hentry⟩

theorem allocated_of_isLive {slot : Handle} (hlive : p.isLive slot = true) :
    (p.markAt slot.index).allocated = true := by
  rw [isLive] at hlive
  split at hlive
  · rename_i mark hmark
    rw [markAt, Array.getD_eq_getD_getElem?, hmark]
    exact (Bool.and_eq_true_iff.1 hlive).1
  · cases hlive

theorem Sound.mem_release (h : p.Sound free alloc) {slot : Handle} (hslot : p.isLive slot = true)
    {entry : Handle × α} (hmem : entry ∈ p.toList) :
    (p.release slot.index).isLive entry.1 = false ∨ entry ∈ (p.release slot.index).toList := by
  have hmarked := (h.marked slot.index).1 (allocated_of_isLive hslot)
  obtain ⟨before, after, rfl⟩ := List.append_of_mem hmarked
  obtain ⟨-, hi, hentry⟩ := h.isLive_of_mem hmem
  by_cases heq : entry.1.index = slot.index
  · have hlt : slot.index < p.marks.size := h.marks_size ▸ h.lt_of_mem (heq ▸ hi)
    refine Or.inl (Bool.eq_false_iff.2 fun hlive => ?_)
    have hallocated := allocated_of_isLive hlive
    rw [heq, markAt_release_self hlt] at hallocated
    cases hallocated
  · refine Or.inr ?_
    rw [h.toList_release, List.mem_append, List.mem_filterMap, List.mem_filterMap]
    rcases List.mem_append.1 hi with hi | hi
    · exact Or.inl ⟨_, hi, hentry⟩
    · exact Or.inr ⟨_, (List.mem_cons.1 hi).resolve_left heq, hentry⟩

/-! ### Sweeping -/

/-- What visiting a list of entries leaves: the last state of the visitor and the entries it keeps. -/
def visitList (visit : Visitor σ α) : σ → List (Handle × α) → σ × List (Handle × α)
  | s, [] => (s, [])
  | s, (h, a) :: rest =>
    let (s, a, verdict) := visit s h a
    let (s, kept) := visitList visit s rest
    (s, match verdict with
      | .keep => (h, a) :: kept
      | .release => kept)

/-- What a sweep leaves, given the entries before those it has still to visit. -/
structure Swept (p : Pool α) (before : List (Handle × α)) (visited : σ × List (Handle × α))
    (count : Nat) (answer : σ × Nat × Pool α) : Prop where
  sound : ∃ free alloc, answer.2.2.Sound free alloc
  state : answer.1 = visited.1
  toList : answer.2.2.toList = before ++ visited.2
  released : answer.2.1 + visited.2.length = count
  capacity : answer.2.2.capacity = p.capacity
  init : answer.2.2.init = p.init
  equal : answer.2.2.equal = p.equal

theorem sweepFrom_spec (visit : Visitor σ α) (done : List Nat) {rest : List Nat} {fuel n : Nat}
    {s : σ} (h : p.Sound free (done ++ rest)) (hfuel : rest.length ≤ fuel) :
    p.Swept (done.filterMap p.entryAt) (visitList visit s (rest.filterMap p.entryAt))
      (n + rest.length) (sweepFrom visit fuel rest.head? s n p) := by
  induction rest generalizing p free done fuel n s with
  | nil =>
    have hstop : sweepFrom visit fuel none s n p = (s, n, p) := by cases fuel <;> rfl
    rw [List.append_nil] at h
    rw [List.head?_nil, hstop]
    exact ⟨⟨free, done, h⟩, rfl, by simp [h.toList_eq, visitList], rfl, rfl, rfl, rfl⟩
  | cons i rest ih =>
    obtain ⟨fuel, rfl⟩ : ∃ m, fuel = m + 1 := ⟨fuel - 1, by simp at hfuel; omega⟩
    have hfuel : rest.length ≤ fuel := by simpa using hfuel
    obtain ⟨a, ha⟩ := h.element (i := i) (by simp)
    -- the successor is read before the visit, which may take the slot off the list
    have hnext : (p.links.link i).next = rest.head? := by rw [h.alloc_holds.next_eq]
    have hi := h.alloc_holds.notMem_rest
    rw [List.head?_cons, sweepFrom, List.filterMap_cons, entryAt_eq ha]
    simp only [ha, hnext, visitList]
    generalize hvisit : visit s (p.handleAt i) a = visited
    obtain ⟨s, b, verdict⟩ := visited
    have hsound := h.modifyAt (i := i) (fun _ => b)
    cases verdict with
    | keep =>
      have hframe : ∀ j ∈ done ++ rest, (p.modifyAt i fun _ => b).entryAt j = p.entryAt j :=
        fun j hj => entryAt_modifyAt_ne _ (ne_of_mem_of_not_mem hj hi)
      have hrest := ih (done ++ [i]) (n := n) (s := s) (by simpa using hsound) hfuel
      rw [List.filterMap_append, List.filterMap_cons, entryAt_modifyAt_self _ ha,
        List.filterMap_congr fun j hj => hframe j (List.mem_append_left _ hj),
        List.filterMap_congr fun j hj => hframe j (List.mem_append_right _ hj)] at hrest
      refine ⟨hrest.sound, hrest.state, ?_, ?_, ?_, hrest.init, hrest.equal⟩
      · rw [hrest.toList]
        simp
      · have := hrest.released
        simp only [List.length_cons]
        omega
      · simpa using hrest.capacity
    | release =>
      have hframe : ∀ j ∈ done ++ rest,
          ((p.modifyAt i fun _ => b).release i).entryAt j = p.entryAt j := fun j hj => by
        have hne := ne_of_mem_of_not_mem hj hi
        simp [hne]
      have hrest := ih done (n := n + 1) (s := s) hsound.release hfuel
      rw [List.filterMap_congr fun j hj => hframe j (List.mem_append_left _ hj),
        List.filterMap_congr fun j hj => hframe j (List.mem_append_right _ hj)] at hrest
      refine ⟨hrest.sound, hrest.state, hrest.toList, ?_, ?_, hrest.init, hrest.equal⟩
      · have := hrest.released
        simp only [List.length_cons]
        omega
      · simpa using hrest.capacity

theorem sweep_spec (visit : Visitor σ α) (s : σ) (h : p.Sound free alloc) :
    p.Swept [] (visitList visit s p.toList) p.size (p.sweep s visit) := by
  have hlen : alloc.length ≤ p.capacity := by
    have := h.length_add
    omega
  have hswept := sweepFrom_spec visit [] (n := 0) (s := s) h hlen
  rw [← h.toList_eq, Nat.zero_add, ← h.length_toList, ← h.size_eq] at hswept
  rw [sweep, h.alloc_holds.head]
  exact hswept

/-- A walk makes as many steps as there are slots to visit, and more fuel is left over. -/
theorem Sound.sweepFrom_fuel (visit : Visitor σ α) (done : List Nat) {rest : List Nat}
    {fuel n : Nat} {s : σ} (h : p.Sound free (done ++ rest)) (hfuel : rest.length ≤ fuel) :
    sweepFrom visit fuel rest.head? s n p = sweepFrom visit rest.length rest.head? s n p := by
  induction rest generalizing p free done fuel n s with
  | nil => cases fuel <;> rfl
  | cons i rest ih =>
    obtain ⟨fuel, rfl⟩ : ∃ m, fuel = m + 1 := ⟨fuel - 1, by simp at hfuel; omega⟩
    have hfuel : rest.length ≤ fuel := by simpa using hfuel
    have hnext : (p.links.link i).next = rest.head? := by rw [h.alloc_holds.next_eq]
    obtain ⟨a, ha⟩ := h.element (i := i) (by simp)
    rw [List.head?_cons, List.length_cons, sweepFrom, sweepFrom]
    simp only [ha, hnext]
    generalize visit s (p.handleAt i) a = visited
    obtain ⟨s, b, verdict⟩ := visited
    have hsound := h.modifyAt (i := i) (fun _ => b)
    cases verdict with
    | keep => exact ih (done ++ [i]) (by simpa using hsound) hfuel
    | release => exact ih done hsound.release hfuel

variable {τ β : Type}

theorem sweepFrom_map (forget : τ → σ) {fine : Visitor τ α} {visit : Visitor σ α}
    (h : ∀ t slot a, (forget (fine t slot a).1, (fine t slot a).2) = visit (forget t) slot a)
    (fuel : Nat) (next : Option Nat) (t : τ) (n : Nat) (p : Pool α) :
    let swept := sweepFrom fine fuel next t n p
    (forget swept.1, swept.2) = sweepFrom visit fuel next (forget t) n p := by
  induction fuel generalizing next t n p with
  | zero => rfl
  | succ fuel ih =>
    cases next with
    | none => rfl
    | some i =>
      simp only [sweepFrom]
      cases p.elements[i]? with
      | none => rfl
      | some a =>
        simp only [← h]
        cases (fine t (p.handleAt i) a).2.2 with
        | keep => exact ih ..
        | release => exact ih ..

/-- A visitor that also takes notes of how each visit changes the state. -/
def watch (visit : Visitor σ α) (note : σ → σ → α → List β) : Visitor (σ × List β) α :=
  fun (s, notes) h a =>
    let (s', a', verdict) := visit s h a
    ((s', notes ++ note s s' a), a', verdict)

/-- Watching a visitor does not disturb the sweep. -/
theorem sweepFrom_watch (visit : Visitor σ α) (note : σ → σ → α → List β) (fuel : Nat)
    (next : Option Nat) (s : σ) (notes : List β) (n : Nat) (p : Pool α) :
    let watched := sweepFrom (watch visit note) fuel next (s, notes) n p
    (watched.1.1, watched.2) = sweepFrom visit fuel next s n p :=
  sweepFrom_map Prod.fst (fun _ _ _ => rfl) fuel next (s, notes) n p

/-! ### Making a pool -/

theorem holds_threadAll (capacity : Nat) :
    (threadAll capacity).1.Holds (threadAll capacity).2 (List.range capacity) ∧
      (threadAll capacity).2.size = capacity := by
  have hprefix : ∀ n ≤ capacity,
      let state := (List.range n).foldl (fun state i => state.1.pushBack state.2 i)
        (IndexList.empty, Links.ofSize capacity)
      state.1.Holds state.2 (List.range n) ∧ state.2.size = capacity := by
    intro n
    induction n with
    | zero => exact fun _ => ⟨IndexList.holds_empty, by simp [Links.size, Links.ofSize]⟩
    | succ n ih =>
      intro hn
      obtain ⟨hholds, hsize⟩ := ih (by omega)
      rw [List.range_succ, List.foldl_append]
      refine ⟨IndexList.holds_pushBack hholds (by simp) (hsize.symm ▸ hn :), ?_⟩
      exact IndexList.size_pushBack.trans hsize
  exact hprefix capacity (Nat.le_refl _)

theorem ofFn_spec {capacity : Nat} (hcap : 0 < capacity) (make : Nat → α) (init : α → α)
    (equal : α → α → Bool) :
    ∃ p, ofFn capacity make init equal = .ok p ∧ p.Sound (List.range capacity) [] ∧
      p.capacity = capacity ∧ p.init = init ∧ p.equal = equal := by
  obtain ⟨hholds, hsize⟩ := holds_threadAll capacity
  have hcapacity : (Array.ofFn fun i : Fin capacity => init (make i)).size = capacity :=
    Array.size_ofFn
  rw [ofFn, if_neg (by omega)]
  refine ⟨_, rfl, ⟨hholds, IndexList.holds_empty, by simp, ?_, ?_, ?_, ?_⟩, hcapacity, rfl, rfl⟩
  · exact fun i hi => Or.inl (List.mem_range.2 (hcapacity ▸ hi))
  · exact hsize.trans hcapacity.symm
  · exact (Array.size_replicate ..).trans hcapacity.symm
  · intro i
    rw [markAt]
    by_cases hi : i < capacity <;> simp [hi]

end Pool

end Osal
