import Mathlib.Data.List.Induction
import Mathlib.Logic.Function.Iterate
import Osal.Proofs.IndexList

/-!
# Lists over one array of links as sequences

`Sequences` is what a family of lists stands for: one sequence of indices for each list. As long as an index
is appended only while it is on no list, and removed only from the list it is on, a family does to its links
what is done to the sequences (`refines_sequences`), whatever the links were at first. `Represents` says what
can be seen of that: the ends and the length of each list, the walks along it in both directions, and that
an index that was taken off its list leaves no trace.
-/

namespace Osal

/-! ## Walks -/

namespace Links

variable {links : Links} {prev next : Option Nat} {xs : List Nat}

/-- A cursor after one step towards the tail. -/
def forward (links : Links) (cursor : Option Nat) : Option Nat :=
  cursor.bind fun i => (links.link i).next

/-- A cursor after one step towards the head. -/
def backward (links : Links) (cursor : Option Nat) : Option Nat :=
  cursor.bind fun i => (links.link i).prev

theorem forward_iterate (h : Seg links prev xs none) (n : Nat) :
    links.forward^[n] xs.head? = xs[n]? := by
  induction xs generalizing prev n with
  | nil => exact Function.iterate_fixed rfl n
  | cons i xs ih =>
    cases n with
    | zero => rfl
    | succ n =>
      have hnext : links.forward (some i) = xs.head? := by
        rw [forward, Option.bind_some, h.1, Option.or_none]
      rw [Function.iterate_succ_apply, List.head?_cons, hnext, ih h.2, List.getElem?_cons_succ]

theorem backward_iterate (h : Seg links none xs next) (n : Nat) :
    links.backward^[n] xs.getLast? = xs.reverse[n]? := by
  induction xs using List.reverseRecOn generalizing next n with
  | nil => exact Function.iterate_fixed rfl n
  | append_singleton xs i ih =>
    rw [List.getLast?_concat, List.reverse_append, List.reverse_singleton, List.singleton_append]
    cases n with
    | zero => rfl
    | succ n =>
      obtain ⟨hfront, hlast, -⟩ := seg_append.1 h
      have hprev : links.backward (some i) = xs.getLast? := by
        rw [backward, Option.bind_some, hlast, Option.or_none]
      rw [Function.iterate_succ_apply, hprev, ih hfront, List.getElem?_cons_succ]

end Links

/-! ## Sequences -/

/-- What can be asked of a family of lists. -/
inductive ListRequest where
  | pushBack (list i : Nat)
  | popFront (list : Nat)
  | unlink (list i : Nat)

def ListRequest.list : ListRequest → Nat
  | .pushBack k _ | .popFront k | .unlink k _ => k

/-- Sequences of indices. -/
structure Sequences where
  /-- How many indices there are. -/
  size : Nat
  /-- How many sequences there are. -/
  count : Nat
  seq : Nat → List Nat := fun _ => []
  /-- The indices that were ever taken out of a sequence. -/
  removed : List Nat := []

namespace Sequences

def put (s : Sequences) (k : Nat) (xs : List Nat) : Sequences :=
  { s with seq := Function.update s.seq k xs }

def remove (s : Sequences) (k i : Nat) : Sequences :=
  { s.put k ((s.seq k).erase i) with removed := i :: s.removed }

def perform (s : Sequences) : ListRequest → Option Nat × Sequences
  | .pushBack k i => (none, s.put k (s.seq k ++ [i]))
  | .popFront k =>
    match (s.seq k).head? with
    | none => (none, s)
    | some i => (some i, s.remove k i)
  | .unlink k i => (none, s.remove k i)

def serve (s : Sequences) : List ListRequest → List (Option Nat) × Sequences
  | [] => ([], s)
  | request :: requests =>
    let (answer, s) := s.perform request
    let (answers, s) := serve s requests
    (answer :: answers, s)

theorem seq_perform_ne {s : Sequences} {request : ListRequest} {j : Nat} (h : j ≠ request.list) :
    (s.perform request).2.seq j = s.seq j := by
  cases request with
  | pushBack k i => exact Function.update_of_ne h ..
  | popFront k =>
    rw [perform]
    split
    · rfl
    · exact Function.update_of_ne h ..
  | unlink k i => exact Function.update_of_ne h ..

/-- What a caller has to keep to: an index is appended while it is in no sequence, and removed from the
one it is in. -/
def Allows (s : Sequences) : ListRequest → Prop
  | .pushBack k i => k < s.count ∧ i < s.size ∧ ∀ j < s.count, i ∉ s.seq j
  | .popFront k => k < s.count
  | .unlink k i => k < s.count ∧ i ∈ s.seq k

/-- Every one of some requests keeps to the contract when its turn comes. -/
def AllowsAll (s : Sequences) : List ListRequest → Prop
  | [] => True
  | request :: requests => s.Allows request ∧ AllowsAll (s.perform request).2 requests

instance (s : Sequences) (request : ListRequest) : Decidable (s.Allows request) :=
  match request with
  | .pushBack k i => inferInstanceAs (Decidable (k < s.count ∧ i < s.size ∧ ∀ j < s.count, i ∉ s.seq j))
  | .popFront k => inferInstanceAs (Decidable (k < s.count))
  | .unlink k i => inferInstanceAs (Decidable (k < s.count ∧ i ∈ s.seq k))

instance decidableAllowsAll (s : Sequences) :
    (requests : List ListRequest) → Decidable (s.AllowsAll requests)
  | [] => inferInstanceAs (Decidable True)
  | request :: requests =>
    have := decidableAllowsAll (s.perform request).2 requests
    inferInstanceAs (Decidable (s.Allows request ∧ AllowsAll (s.perform request).2 requests))

end Sequences

namespace ListFamily

def perform (f : ListFamily) : ListRequest → Except Violation (Option Nat × ListFamily)
  | .pushBack k i => (f.pushBack k i).map fun f => (none, f)
  | .popFront k => f.popFront k
  | .unlink k i => (f.unlink k i).map fun f => (none, f)

def serve (f : ListFamily) : List ListRequest → Except Violation (List (Option Nat) × ListFamily)
  | [] => .ok ([], f)
  | request :: requests =>
    match f.perform request with
    | .error v => .error v
    | .ok (answer, f) => (serve f requests).map fun (answers, f) => (answer :: answers, f)

/-! ## A family and its sequences -/

/-- Each list of the family holds its sequence. -/
structure Holds (f : ListFamily) (s : Sequences) : Prop where
  count : f.lists.length = s.count
  size : f.links.size = s.size
  lists : ∀ k, (f.list k).Holds f.links (s.seq k)
  disjoint : ∀ j k, j ≠ k → (s.seq j).Disjoint (s.seq k)
  cleared : ∀ i ∈ s.removed, (∀ k, i ∉ s.seq k) → f.links.link i = {}

variable {f : ListFamily} {s : Sequences} {k j i : Nat} {next : IndexList × Links}

theorem list_put_self (hk : k < f.lists.length) : (f.put k next).list k = next.1 := by
  simp [list, put, hk]

theorem list_put_ne (h : j ≠ k) : (f.put k next).list j = f.list j := by
  simp [list, put, Ne.symm h]

theorem holds_empty (links : Links) (count : Nat) :
    Holds { links, lists := List.replicate count .empty } { size := links.size, count } := by
  refine ⟨List.length_replicate, rfl, fun k => ?_, fun _ _ _ => List.disjoint_nil_left _, ?_⟩
  · have hlist : list { links, lists := List.replicate count .empty } k = .empty := by
      by_cases hk : k < count <;> simp [list, hk]
    rw [hlist]
    exact IndexList.holds_empty
  · exact fun i hi => absurd hi List.not_mem_nil

theorem Holds.notMem (h : f.Holds s) (hnot : ∀ k < s.count, i ∉ s.seq k) (k : Nat) : i ∉ s.seq k := by
  by_cases hk : k < s.count
  · exact hnot k hk
  · have hlist : f.list k = .empty := by
      rw [← h.count] at hk
      simp [list, hk]
    have hlength := (h.lists k).length
    rw [hlist] at hlength
    rw [List.eq_nil_of_length_eq_zero hlength.symm]
    exact List.not_mem_nil

theorem Holds.put (h : f.Holds s) (hk : k < s.count) {xs : List Nat} (removed : List Nat)
    (hlist : next.1.Holds next.2 xs) (hsize : next.2.size = f.links.size)
    (hapart : ∀ j, j ≠ k → (s.seq j).Disjoint xs)
    (hframe : ∀ j, j ≠ k → ∀ i ∈ s.seq j, next.2.link i = f.links.link i)
    (hcleared : ∀ i ∈ removed, (∀ j, i ∉ (s.put k xs).seq j) → next.2.link i = {}) :
    (f.put k next).Holds { s.put k xs with removed } := by
  refine ⟨?_, hsize.trans h.size, fun j => ?_, fun j l hjl => ?_, hcleared⟩
  · exact List.length_set.trans h.count
  · by_cases hj : j = k
    · subst hj
      rw [list_put_self (h.count ▸ hk)]
      simp only [Sequences.put, Function.update_self]
      exact hlist
    · rw [list_put_ne hj]
      simp only [Sequences.put, Function.update_of_ne hj]
      exact (h.lists j).congr hsize (hframe j hj)
  · by_cases hj : j = k
    · have hl : l ≠ k := fun heq => hjl (hj.trans heq.symm)
      simp only [Sequences.put, hj, Function.update_self, Function.update_of_ne hl]
      exact List.disjoint_symm (hapart l hl)
    · by_cases hl : l = k
      · simp only [Sequences.put, hl, Function.update_self, Function.update_of_ne hj]
        exact hapart j hj
      · simp only [Sequences.put, Function.update_of_ne hj, Function.update_of_ne hl]
        exact h.disjoint j l hjl

theorem Holds.notMem_of_put {xs : List Nat} (hi : ∀ j, i ∉ (s.put k xs).seq j) :
    i ∉ xs ∧ ∀ j, j ≠ k → i ∉ s.seq j := by
  refine ⟨by simpa [Sequences.put] using hi k, fun j hj => ?_⟩
  simpa [Sequences.put, hj] using hi j

theorem Holds.pushBack (h : f.Holds s) (hk : k < s.count) (hi : i < s.size)
    (hnot : ∀ j, i ∉ s.seq j) :
    f.pushBack k i = .ok (f.put k ((f.list k).pushBack f.links i)) ∧
      (f.put k ((f.list k).pushBack f.links i)).Holds (s.put k (s.seq k ++ [i])) := by
  have hlt : i < f.links.size := h.size ▸ hi
  refine ⟨by rw [ListFamily.pushBack, withIndex, if_pos hlt], ?_⟩
  refine Holds.put h hk s.removed (IndexList.holds_pushBack (h.lists k) (hnot k) hlt)
    IndexList.size_pushBack (fun j hj => ?_) (fun j hj x hx => ?_) (fun x hx hfree => ?_)
  · rw [List.disjoint_append_right]
    exact ⟨h.disjoint j k hj, List.disjoint_singleton.2 (hnot j)⟩
  · exact (h.lists k).link_pushBack (ne_of_mem_of_not_mem hx (hnot j)) (h.disjoint j k hj hx)
  · obtain ⟨hpushed, hothers⟩ := Holds.notMem_of_put hfree
    rw [List.mem_append, List.mem_singleton, not_or] at hpushed
    rw [(h.lists k).link_pushBack hpushed.2 hpushed.1]
    refine h.cleared x hx fun j => ?_
    by_cases hj : j = k
    · exact hj ▸ hpushed.1
    · exact hothers j hj

theorem Holds.unlink (h : f.Holds s) (hk : k < s.count) (hi : i ∈ s.seq k) :
    f.unlink k i = .ok (f.put k ((f.list k).unlink f.links i)) ∧
      (f.put k ((f.list k).unlink f.links i)).Holds (s.remove k i) := by
  have hlist := h.lists k
  have hlt : i < f.links.size := hlist.lt i hi
  have hfull : (f.list k).isEmpty = false := by
    rw [Bool.eq_false_iff, ne_eq, hlist.isEmpty_iff]
    exact List.ne_nil_of_mem hi
  have hrest : ((f.list k).unlink f.links i).1.Holds ((f.list k).unlink f.links i).2
      ((s.seq k).erase i) := by
    obtain ⟨before, after, -, hsplit, herase⟩ := List.exists_erase_eq hi
    rw [herase]
    rw [hsplit] at hlist
    exact IndexList.holds_unlink hlist
  refine ⟨by rw [ListFamily.unlink, hfull, withIndex, if_pos hlt]; rfl, ?_⟩
  refine Holds.put h hk (i :: s.removed) hrest IndexList.size_unlink (fun j hj => ?_) (fun j hj x hx => ?_)
    (fun x hx hfree => ?_)
  · exact List.disjoint_of_subset_right List.erase_subset (h.disjoint j k hj)
  · exact hlist.link_unlink hi (h.disjoint j k hj hx)
  · obtain ⟨hleft, hothers⟩ := Holds.notMem_of_put hfree
    by_cases hxi : x = i
    · rw [hxi]
      exact IndexList.link_unlink_self hlt
    · have hnot : x ∉ s.seq k := fun hmem => hleft ((List.mem_erase_of_ne hxi).2 hmem)
      rw [hlist.link_unlink hi hnot]
      refine h.cleared x ((List.mem_cons.1 hx).resolve_left hxi) fun j => ?_
      by_cases hj : j = k
      · exact hj ▸ hnot
      · exact hothers j hj

/-- A request that keeps to the contract is not refused, and does to the family what it does to the
sequences. The other lists are as they were. -/
theorem Holds.perform (h : f.Holds s) {request : ListRequest} (hallowed : s.Allows request) :
    ∃ f', f.perform request = .ok ((s.perform request).1, f') ∧ f'.Holds (s.perform request).2 ∧
      ∀ j, j ≠ request.list → f'.list j = f.list j := by
  cases request with
  | pushBack k i =>
    obtain ⟨hk, hi, hnot⟩ := hallowed
    obtain ⟨hpush, hholds⟩ := h.pushBack hk hi (h.notMem hnot)
    exact ⟨_, by rw [ListFamily.perform, hpush]; rfl, hholds, fun j => list_put_ne⟩
  | popFront k =>
    have hhead := (h.lists k).head
    rw [ListFamily.perform, popFront, hhead, Sequences.perform]
    cases hfirst : (s.seq k).head? with
    | none => exact ⟨f, rfl, h, fun _ _ => rfl⟩
    | some i =>
      obtain ⟨hunlink, hholds⟩ := h.unlink hallowed (List.mem_of_head? hfirst)
      exact ⟨_, by simp only [hunlink]; rfl, hholds, fun j => list_put_ne⟩
  | unlink k i =>
    obtain ⟨hunlink, hholds⟩ := h.unlink hallowed.1 hallowed.2
    exact ⟨_, by rw [ListFamily.perform, hunlink]; rfl, hholds, fun j => list_put_ne⟩

theorem Holds.serve (h : f.Holds s) {requests : List ListRequest} (hallowed : s.AllowsAll requests) :
    ∃ f', f.serve requests = .ok ((s.serve requests).1, f') ∧ f'.Holds (s.serve requests).2 := by
  induction requests generalizing f s with
  | nil => exact ⟨f, rfl, h⟩
  | cons request requests ih =>
    obtain ⟨next, hperform, hnext, -⟩ := h.perform hallowed.1
    obtain ⟨last, hserve, hlast⟩ := ih hnext hallowed.2
    refine ⟨last, ?_, hlast⟩
    rw [ListFamily.serve, hperform]
    simp only [hserve]
    rfl

/-! ## What can be seen of a family -/

/-- The sequences are those that the links and the ends of the lists tell. -/
structure Represents (f : ListFamily) (s : Sequences) : Prop where
  count : f.lists.length = s.count
  nodup : ∀ k, (s.seq k).Nodup
  disjoint : ∀ j k, j ≠ k → (s.seq j).Disjoint (s.seq k)
  bounded : ∀ k, ∀ i ∈ s.seq k, i < f.links.size
  head : ∀ k, (f.list k).head = (s.seq k).head?
  tail : ∀ k, (f.list k).tail = (s.seq k).getLast?
  length : ∀ k, (f.list k).length = (s.seq k).length
  forwards : ∀ k n, f.links.forward^[n] (f.list k).head = (s.seq k)[n]?
  backwards : ∀ k n, f.links.backward^[n] (f.list k).tail = (s.seq k).reverse[n]?
  /-- After as many steps as the list is long the cursor is nowhere. -/
  ends : ∀ k, f.links.forward^[(f.list k).length] (f.list k).head = none
  items : ∀ k, f.items k = s.seq k
  /-- An index that was taken off its list and is on none has no neighbours. -/
  cleared : ∀ i ∈ s.removed, (∀ k < s.count, i ∉ s.seq k) → f.links.link i = {}

theorem Holds.represents (h : f.Holds s) : f.Represents s where
  count := h.count
  nodup k := (h.lists k).nodup
  disjoint := h.disjoint
  bounded k := (h.lists k).lt
  head k := (h.lists k).head
  tail k := (h.lists k).tail
  length k := (h.lists k).length
  forwards k n := by rw [(h.lists k).head, Links.forward_iterate (h.lists k).seg]
  backwards k n := by rw [(h.lists k).tail, Links.backward_iterate (h.lists k).seg]
  ends k := by
    rw [(h.lists k).head, Links.forward_iterate (h.lists k).seg, (h.lists k).length,
      List.getElem?_length]
  items k := (h.lists k).toList_eq
  cleared i hi hnot := h.cleared i hi (h.notMem hnot)

/-- As long as its callers keep to the contract a family of lists is a family of sequences, whatever its links
were before: no request is refused, all are answered as the sequences answer them, and no list is touched by
a request that is about another. -/
theorem refines_sequences (links : Links) (count : Nat) (requests : List ListRequest)
    (hallowed : Sequences.AllowsAll { size := links.size, count } requests) :
    let start : ListFamily := { links, lists := List.replicate count .empty }
    let sequences := Sequences.serve { size := links.size, count } requests
    ∃ f, start.serve requests = .ok (sequences.1, f) ∧ f.Represents sequences.2 ∧
      ∀ request, sequences.2.Allows request → ∃ f',
        f.perform request = .ok ((sequences.2.perform request).1, f') ∧
        ∀ j, j ≠ request.list → f'.list j = f.list j ∧ f'.items j = f.items j := by
  intro start sequences
  obtain ⟨f, hserve, hholds⟩ := (holds_empty links count).serve hallowed
  refine ⟨f, hserve, hholds.represents, fun request hrequest => ?_⟩
  obtain ⟨f', hperform, hnext, hothers⟩ := hholds.perform hrequest
  refine ⟨f', hperform, fun j hj => ⟨hothers j hj, ?_⟩⟩
  rw [hnext.represents.items, hholds.represents.items, Sequences.seq_perform_ne hj]

/-- Four indices whose links are garbage at first, and two lists. -/
theorem refines_sequences_two_lists :
    let links : Links := ⟨Array.replicate 4 { prev := some 9, next := some 0 }⟩
    let requests : List ListRequest := [.pushBack 0 2, .pushBack 0 0, .pushBack 0 3, .unlink 0 0,
      .pushBack 1 0, .popFront 0, .popFront 1, .popFront 1]
    Sequences.AllowsAll { size := 4, count := 2 } requests ∧ ∃ f,
      serve { links, lists := [.empty, .empty] } requests =
        .ok ([none, none, none, none, none, some 2, some 0, none], f) ∧
      f.items 0 = [3] ∧ f.items 1 = [] ∧ f.links.link 0 = {} := by
  intro links requests
  have hallowed : Sequences.AllowsAll { size := 4, count := 2 } requests := by decide
  obtain ⟨f, hserve, hrepresents, -⟩ := refines_sequences links 2 requests hallowed
  exact ⟨hallowed, f, hserve, hrepresents.items 0, hrepresents.items 1,
    hrepresents.cleared 0 (by decide) (by decide)⟩

end ListFamily

end Osal
