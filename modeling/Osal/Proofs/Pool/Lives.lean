import Osal.Proofs.Pool.Queues

/-!
# How long a handle lives

The generation of a slot counts its releases in one word. `handle_life`: a handle is live just if its slot
is allocated and was released a multiple of `UInt32.size` times since the handle was issued. So it is
stale from its own release on, until the generation has gone round.
-/

namespace Osal

namespace SlotQueues

variable {α σ : Type} {q q' q'' : SlotQueues α} {i j : Nat}

/-- One if a slot is allocated before and not after. -/
def lost (q q' : SlotQueues α) (j : Nat) : Nat :=
  if j ∈ q.allocated ∧ j ∉ q'.allocated then 1 else 0

/-- The second queues come from the first by releases alone, each of them counted. -/
structure Sheds (q q' : SlotQueues α) : Prop where
  sublist : q'.allocated.Sublist q.allocated
  releases : ∀ j, q'.releases j = q.releases j + q.lost q' j

theorem Sheds.refl (q : SlotQueues α) : q.Sheds q :=
  ⟨List.Sublist.refl _, fun j => by simp [lost]⟩

theorem Sheds.trans (h : q.Sheds q') (h' : q'.Sheds q'') : q.Sheds q'' := by
  refine ⟨h'.sublist.trans h.sublist, fun j => ?_⟩
  rw [h'.releases, h.releases, Nat.add_assoc]
  refine congrArg _ ?_
  have hsub := h.sublist.subset (a := j)
  have hsub' := h'.sublist.subset (a := j)
  by_cases hj : j ∈ q'.allocated
  · simp [lost, hj, hsub hj]
  · simp [lost, hj, mt hsub' hj]

theorem sheds_put (q : SlotQueues α) (i : Nat) (a : α) : q.Sheds (q.put i a) :=
  ⟨(Sheds.refl q).sublist, (Sheds.refl q).releases⟩

theorem sheds_release (hnodup : q.allocated.Nodup) (hi : i ∈ q.allocated) :
    q.Sheds (q.release i) := by
  refine ⟨List.erase_sublist, fun j => ?_⟩
  have hrest : j ∈ (q.release i).allocated ↔ j ≠ i ∧ j ∈ q.allocated := hnodup.mem_erase_iff
  rw [releases_release]
  by_cases hji : j = i
  · subst hji
    simp [lost, hrest, hi]
  · simp [lost, hrest, hji]

theorem sheds_foldl (visit : Pool.Visitor σ α) {rest : List Nat} {s : σ} {n : Nat}
    (hnodup : q.allocated.Nodup) (hrest : rest.Nodup) (hsub : rest ⊆ q.allocated) :
    q.Sheds (rest.foldl (visitAt visit) (s, n, q)).2.2 := by
  induction rest generalizing q s n with
  | nil => exact Sheds.refl q
  | cons i rest ih =>
    obtain ⟨hi, hrest⟩ := List.nodup_cons.1 hrest
    obtain ⟨hmem, hsub⟩ := List.cons_subset.1 hsub
    rw [List.foldl_cons, visitAt]
    generalize visit s (q.handleAt i) (q.element i) = visited
    obtain ⟨s, a, verdict⟩ := visited
    cases verdict with
    | keep => exact (sheds_put q i a).trans (ih hnodup hrest hsub)
    | release =>
      have hreleased : (q.put i a).Sheds ((q.put i a).release i) := sheds_release hnodup hmem
      refine (sheds_put q i a).trans (hreleased.trans (ih (hnodup.erase i) hrest fun j hj => ?_))
      exact (List.mem_erase_of_ne (ne_of_mem_of_not_mem hj hi)).2 (hsub hj)

theorem mem_of_isLive {h : Handle} (hlive : q.isLive h = true) : h.index ∈ q.allocated :=
  of_decide_eq_true (Bool.and_eq_true_iff.1 hlive).1

theorem mem_of_findBy {holds : α → Bool} {h : Handle} (hfind : q.findBy holds = some h) :
    h.index ∈ q.allocated := by
  obtain ⟨entry, hfound, rfl⟩ := Option.map_eq_some_iff.1 hfind
  obtain ⟨i, hi, rfl⟩ := List.mem_map.1 (List.mem_of_find?_eq_some hfound)
  exact hi

theorem releases_perform (hnodup : q.allocated.Nodup) (request : PoolRequest α) (j : Nat) :
    (q.perform request).2.releases j = q.releases j + q.lost (q.perform request).2 j := by
  cases request with
  | allocate =>
    rw [perform]
    cases q.free with
    | nil => exact (Sheds.refl q).releases j
    | cons i rest =>
      have hkept : j ∈ q.allocated → j ∈ (q.take i).allocated := List.mem_append_left _
      have hnone : q.lost (q.take i) j = 0 := if_neg fun hlost => hlost.2 (hkept hlost.1)
      rw [hnone]
      rfl
  | free h =>
    rw [perform]
    by_cases hlive : q.isLive h = true
    · rw [if_pos hlive]
      exact (sheds_release hnodup (mem_of_isLive hlive)).releases j
    · rw [if_neg hlive]
      exact (Sheds.refl q).releases j
  | freeValue probe =>
    rw [perform]
    cases hfind : q.findBy fun a => q.equal a probe with
    | none => exact (Sheds.refl q).releases j
    | some h => exact (sheds_release hnodup (mem_of_findBy hfind)).releases j
  | set h a =>
    rw [perform]
    by_cases hlive : q.isLive h = true
    · rw [if_pos hlive]
      exact (sheds_put q h.index a).releases j
    · rw [if_neg hlive]
      exact (Sheds.refl q).releases j
  | sweep start visit =>
    exact (sheds_foldl visit hnodup hnodup (List.Subset.refl _)).releases j

end SlotQueues

/-- Whether a request can return elements to the pool. -/
def PoolRequest.returns {α : Type} : PoolRequest α → Bool
  | .free _ | .freeValue _ | .sweep .. => true
  | .allocate | .set .. => false

namespace Pool

variable {α : Type} {p : Pool α} {q : SlotQueues α} {h : Handle} {i : Nat}

def releasedBy (p : Pool α) (i : Nat) (request : PoolRequest α) : Bool :=
  (p.markAt i).allocated && !((p.perform request).2.markAt i).allocated

def releasesIn (p : Pool α) (i : Nat) : List (PoolRequest α) → Nat
  | [] => 0
  | request :: requests =>
    (p.releasedBy i request).toNat + (p.perform request).2.releasesIn i requests

theorem Mirrors.allocated_iff (hm : p.Mirrors q) : (p.markAt i).allocated = true ↔ i ∈ q.allocated :=
  hm.sound.marked i

theorem Mirrors.lost_eq (hm : p.Mirrors q) (request : PoolRequest α) :
    q.lost (q.perform request).2 i = (p.releasedBy i request).toNat := by
  have hbefore := hm.allocated_iff (i := i)
  have hafter := (hm.perform request).2.allocated_iff (i := i)
  simp only [SlotQueues.lost, ← hbefore, ← hafter, releasedBy]
  cases (p.markAt i).allocated <;> cases ((p.perform request).2.markAt i).allocated <;> rfl

theorem Mirrors.releases_serve (hm : p.Mirrors q) (requests : List (PoolRequest α)) (i : Nat) :
    (q.serve requests).2.releases i = q.releases i + p.releasesIn i requests := by
  induction requests generalizing p q with
  | nil => rfl
  | cons request requests ih =>
    have hnodup := hm.sound.alloc_holds.nodup
    rw [SlotQueues.serve, releasesIn]
    rw [ih (hm.perform request).2, SlotQueues.releases_perform hnodup, hm.lost_eq, Nat.add_assoc]

theorem allocated_serve {requests : List (PoolRequest α)}
    (hallocated : (p.markAt i).allocated = true) (hkept : p.releasesIn i requests = 0) :
    ((p.serve requests).2.markAt i).allocated = true := by
  induction requests generalizing p with
  | nil => exact hallocated
  | cons request requests ih =>
    rw [releasesIn, Nat.add_eq_zero_iff, Bool.toNat_eq_zero, releasedBy, hallocated] at hkept
    exact ih (Bool.not_inj hkept.1) hkept.2

theorem ofNat_add_eq_iff {a n : Nat} : UInt32.ofNat (a + n) = UInt32.ofNat a ↔ UInt32.size ∣ n := by
  rw [← UInt32.toNat_inj, UInt32.toNat_ofNat', UInt32.toNat_ofNat', UInt32.size]
  omega

/-- What a pool does with a handle whose slot was released a number of times since. -/
structure HandleLife (p : Pool α) (h : Handle) (released : Nat) : Prop where
  isLive_iff : p.isLive h = true ↔ (p.markAt h.index).allocated = true ∧ UInt32.size ∣ released
  /-- It lives until its slot is released. -/
  live : released = 0 → p.isLive h = true
  /-- Only a request that returns elements can end its life. -/
  lives_on : ∀ request : PoolRequest α, p.isLive h = true → request.returns = false →
    (p.perform request).2.isLive h = true
  free : 0 < released → released < UInt32.size → p.free h = .error .notFound
  get? : 0 < released → released < UInt32.size → p.get? h = none
  get : 0 < released → released < UInt32.size → p.get h = .error (.staleHandle h.index h.generation)
  set : 0 < released → released < UInt32.size → ∀ a,
    p.set h a = .error (.staleHandle h.index h.generation)
  /-- No two elements have the same handle. -/
  distinct : (p.toList.map (·.1)).Nodup

theorem Mirrors.lives_on (hm : p.Mirrors q) {request : PoolRequest α} (hlive : p.isLive h = true)
    (hkeeps : request.returns = false) : (p.perform request).2.isLive h = true := by
  rw [(hm.perform request).2.isLive_eq]
  rw [hm.isLive_eq] at hlive
  cases request with
  | allocate =>
    rw [SlotQueues.perform]
    cases q.free with
    | nil => exact hlive
    | cons i rest =>
      obtain ⟨hmem, hhandle⟩ := Bool.and_eq_true_iff.1 hlive
      refine Bool.and_eq_true_iff.2 ⟨decide_eq_true ?_, hhandle⟩
      exact List.mem_append_left _ (of_decide_eq_true hmem)
  | set h' a =>
    rw [SlotQueues.perform]
    split <;> exact hlive
  | free h' => cases hkeeps
  | freeValue probe => cases hkeeps
  | sweep start visit => cases hkeeps

/-- A handle that was issued when its slot had been released `before` times. -/
theorem Mirrors.handleLife (hm : p.Mirrors q) {before released : Nat}
    (hh : h.generation = .ofNat before) (hreleases : q.releases h.index = before + released)
    (hallocated : released = 0 → (p.markAt h.index).allocated = true) : p.HandleLife h released := by
  have hiff : p.isLive h = true ↔ (p.markAt h.index).allocated = true ∧ UInt32.size ∣ released := by
    rw [Pool.isLive_eq, Bool.and_eq_true]
    refine and_congr_right fun hmarked => ?_
    rw [hm.generation _ (hm.lt_of_mem (hm.allocated_iff.1 hmarked)), hreleases, hh, beq_iff_eq]
    exact ofNat_add_eq_iff
  have hstale : 0 < released → released < UInt32.size → p.isLive h = false := fun hpos hlt =>
    Bool.eq_false_iff.2 fun hlive => absurd (Nat.le_of_dvd hpos (hiff.1 hlive).2) (by omega)
  have hgone : 0 < released → released < UInt32.size → p.get? h = none := fun hpos hlt => by
    rw [Pool.get?, hstale hpos hlt]
    rfl
  exact {
    isLive_iff := hiff
    live := fun hzero => hiff.2 ⟨hallocated hzero, hzero ▸ Nat.dvd_zero _⟩
    lives_on := fun _ => hm.lives_on
    free := fun hpos hlt => by
      rw [Pool.free, hstale hpos hlt]
      rfl
    get? := hgone
    get := fun hpos hlt => by rw [Pool.get, hgone hpos hlt]
    set := fun hpos hlt a => by
      rw [Pool.set, hstale hpos hlt]
      rfl
    distinct := hm.sound.nodup_handles }

/-- The exact life of a handle, over every run of requests after the allocation that issued it. -/
theorem handle_life {capacity : Nat} {make : Nat → α} {init : α → α} {equal : α → α → Bool}
    (hp : ofFn capacity make init equal = .ok p) (before after : List (PoolRequest α))
    {p' : Pool α} (hissued : (p.serve before).2.allocate = .ok (h, p')) :
    (p'.serve after).2.HandleLife h (p'.releasesIn h.index after) := by
  have hcap : 0 < capacity := by
    rw [ofFn] at hp
    split at hp
    · cases hp
    · omega
  obtain ⟨start, hstart, hm⟩ := mirrors_ofFn hcap make init equal
  obtain rfl := Except.ok.inj (hstart.symm.trans hp)
  have hbefore := (hm.serve before).2
  generalize (start.serve before).2 = issuing at *
  generalize ((SlotQueues.ofFn capacity make init equal).serve before).2 = q at *
  have hhead := hbefore.sound.free_holds.head
  cases hfree : q.free with
  | nil =>
    rw [hfree] at hhead
    rw [allocate_of_empty hhead] at hissued
    cases hissued
  | cons i rest =>
    rw [hfree] at hhead
    rw [allocate_of_head hhead] at hissued
    obtain ⟨rfl, rfl⟩ := Prod.mk.inj (Except.ok.inj hissued)
    have hlt : i < issuing.capacity := by
      have hmem : i ∈ q.free := hfree ▸ List.mem_cons_self
      exact hbefore.sound.links_size ▸ hbefore.sound.free_holds.lt i hmem
    have htaken := hbefore.take hfree
    have hmarked : ((issuing.take i).markAt i).allocated = true :=
      htaken.allocated_iff.2 (List.mem_append_right _ List.mem_cons_self)
    exact (htaken.serve after).2.handleLife (hbefore.generation i hlt)
      (htaken.releases_serve after i) (allocated_serve hmarked)

/-- The only slot is released and allocated again: its new element is not the one of the old handle. -/
theorem handle_life_successor :
    let pool := ofFn 1 (fun i => i) (fun _ => 0) (fun a b => a == b)
    ∃ p p' : Pool Nat, pool = .ok p ∧ p.allocate = .ok (⟨0, 0⟩, p') ∧
      let last := (p'.serve [.free ⟨0, 0⟩, .allocate]).2
      last.toList = [(⟨0, 1⟩, 0)] ∧ last.free ⟨0, 0⟩ = .error .notFound := by
  intro pool
  obtain ⟨p, hp⟩ : ∃ p, pool = .ok p := ⟨_, rfl⟩
  obtain ⟨p', hissued⟩ : ∃ p', (p.serve []).2.allocate = .ok (⟨0, 0⟩, p') :=
    Except.ok.inj hp ▸ ⟨_, rfl⟩
  have hlife := handle_life hp [] [.free ⟨0, 0⟩, .allocate] hissued
  obtain rfl := Except.ok.inj hp
  obtain ⟨-, rfl⟩ := Prod.mk.inj (Except.ok.inj hissued)
  exact ⟨_, _, hp, hissued, rfl, hlife.free (by decide) (by decide)⟩

end Pool

end Osal
