import Osal.Proofs.Pool.Queues

/-!
# Sweeps

A sweep walks along links that it changes on its way. `sweep_sifts`: it shows each allocated element
once, in the order of allocation, and its visits tell what it leaves. The elements that were kept stay
in their order, as the visitor left them; the slots that were released are behind the free ones, cleaned
and in their next generation.

The walk is a fold over the queue of allocated slots (`Mirrors.sweep`), so what becomes of single slots
is said of the queues first (`SlotQueues.Sifts`).
-/

namespace Osal

namespace Pool

variable {α σ τ : Type}

/-- One visit of a sweep. -/
structure Visit (α : Type) where
  handle : Handle
  /-- The element as it was shown. -/
  shown : α
  /-- The element as the visitor left it. -/
  left : α
  verdict : Verdict

/-- The entries that were kept, as the visitor left them. -/
def kept (visits : List (Visit α)) : List (Handle × α) :=
  (visits.filter (·.verdict = .keep)).map fun v => (v.handle, v.left)

def releasedSlots (visits : List (Visit α)) : List Nat :=
  (visits.filter (·.verdict = .release)).map (·.handle.index)

/-- The visits of entries that a visitor is shown one after the other. -/
def visitsOf (visit : Visitor σ α) : σ → List (Handle × α) → List (Visit α)
  | _, [] => []
  | s, (handle, shown) :: rest =>
    let (s, left, verdict) := visit s handle shown
    { handle, shown, left, verdict } :: visitsOf visit s rest

def stateAfter (visit : Visitor σ α) (s : σ) (entries : List (Handle × α)) : σ :=
  entries.foldl (fun s entry => (visit s entry.1 entry.2).1) s

/-- A visitor that also records its visits. -/
def record (visit : Visitor σ α) : Visitor (σ × List (Visit α)) α :=
  fun (s, visits) handle shown =>
    let (s, left, verdict) := visit s handle shown
    ((s, visits ++ [{ handle, shown, left, verdict }]), left, verdict)

def visits (p : Pool α) (s : σ) (visit : Visitor σ α) : List (Visit α) :=
  (p.sweep (s, []) (record visit)).1.2

/-- What a sweep leaves of a pool, told by its visits. -/
structure Sifted (p : Pool α) (s : σ) (visit : Visitor σ α) (visits : List (Visit α))
    (swept : σ × Nat × Pool α) : Prop where
  /-- Each entry is shown once, in its place, with the handle and the value that it has now. -/
  shown : visits.map (fun v => (v.handle, v.shown)) = p.toList
  once : (visits.map (·.handle)).Nodup
  live : ∀ v ∈ visits, p.isLive v.handle = true ∧ p.get? v.handle = some v.shown
  /-- The visitor goes from each visit to the next in the state that it answered. -/
  answered : visits = visitsOf visit s p.toList
  state : swept.1 = stateAfter visit s p.toList
  /-- To record the visits does not change the sweep. -/
  recorded : ((p.sweep (s, []) (record visit)).1.1, (p.sweep (s, []) (record visit)).2) = swept
  /-- No more steps are needed than there are allocated elements. -/
  ends : ∀ fuel, p.size ≤ fuel → sweepFrom visit fuel p.allocatedList.head s 0 p = swept
  toList : swept.2.2.toList = kept visits
  /-- The handles that are still live are those of the elements that were kept. -/
  isLive : ∀ v ∈ visits, swept.2.2.isLive v.handle = decide (v.verdict = .keep)
  freeSlots : swept.2.2.freeSlots = p.freeSlots ++ releasedSlots visits
  released : ∀ v ∈ visits, v.verdict = .release →
    swept.2.2.elements[v.handle.index]? = some (p.init v.left) ∧
      swept.2.2.markAt v.handle.index =
        { generation := v.handle.generation + 1, allocated := false }
  /-- Free elements stay as they are. -/
  untouched : ∀ i ∈ p.freeSlots,
    swept.2.2.elements[i]? = p.elements[i]? ∧ swept.2.2.markAt i = p.markAt i
  count : swept.2.1 = (releasedSlots visits).length
  freeCount : swept.2.2.freeCount = p.freeCount + swept.2.1

/-! ## Visits -/

variable {visit : Visitor σ α} {s : σ} {vs : List (Visit α)} {v : Visit α}

theorem kept_cons_keep (h : v.verdict = .keep) : kept (v :: vs) = (v.handle, v.left) :: kept vs := by
  simp [kept, h]

theorem kept_cons_release (h : v.verdict = .release) : kept (v :: vs) = kept vs := by
  simp [kept, h]

theorem releasedSlots_cons_keep (h : v.verdict = .keep) :
    releasedSlots (v :: vs) = releasedSlots vs := by
  simp [releasedSlots, h]

theorem releasedSlots_cons_release (h : v.verdict = .release) :
    releasedSlots (v :: vs) = v.handle.index :: releasedSlots vs := by
  simp [releasedSlots, h]

theorem length_kept_add (vs : List (Visit α)) :
    (kept vs).length + (releasedSlots vs).length = vs.length := by
  induction vs with
  | nil => rfl
  | cons v vs ih =>
    cases h : v.verdict with
    | keep =>
      rw [kept_cons_keep h, releasedSlots_cons_keep h, List.length_cons, List.length_cons, ← ih]
      omega
    | release =>
      rw [kept_cons_release h, releasedSlots_cons_release h, List.length_cons, List.length_cons, ← ih]
      omega

theorem map_shown_visitsOf (visit : Visitor σ α) (s : σ) (entries : List (Handle × α)) :
    (visitsOf visit s entries).map (fun v => (v.handle, v.shown)) = entries := by
  induction entries generalizing s with
  | nil => rfl
  | cons entry rest ih => exact congrArg (entry :: ·) (ih _)

theorem map_index_visitsOf (visit : Visitor σ α) (s : σ) (entries : List (Handle × α)) :
    (visitsOf visit s entries).map (·.handle.index) = entries.map (·.1.index) := by
  have hshown := congrArg (List.map (·.1.index)) (map_shown_visitsOf visit s entries)
  rwa [List.map_map] at hshown

theorem visitsOf_of_forall {act : α → α × Verdict}
    (h : ∀ s handle shown, (visit s handle shown).2 = act shown) (s : σ)
    (entries : List (Handle × α)) :
    visitsOf visit s entries = entries.map fun entry =>
      { handle := entry.1, shown := entry.2, left := (act entry.2).1, verdict := (act entry.2).2 } := by
  induction entries generalizing s with
  | nil => rfl
  | cons entry rest ih =>
    rw [List.map_cons, ← h s entry.1 entry.2]
    exact congrArg (_ :: ·) (ih _)

theorem visitList_eq (visit : Visitor σ α) (s : σ) (entries : List (Handle × α)) :
    visitList visit s entries = (stateAfter visit s entries, kept (visitsOf visit s entries)) := by
  induction entries generalizing s with
  | nil => rfl
  | cons entry rest ih =>
    obtain ⟨handle, shown⟩ := entry
    simp only [visitList, visitsOf, stateAfter, List.foldl_cons, ih]
    cases hverdict : (visit s handle shown).2.2 with
    | keep => rw [kept_cons_keep rfl]
    | release => rw [kept_cons_release rfl]

theorem stateAfter_record (visit : Visitor σ α) (s : σ) (log : List (Visit α))
    (entries : List (Handle × α)) :
    stateAfter (record visit) (s, log) entries =
      (stateAfter visit s entries, log ++ visitsOf visit s entries) := by
  induction entries generalizing s log with
  | nil => rw [visitsOf, List.append_nil]; rfl
  | cons entry rest ih =>
    obtain ⟨handle, shown⟩ := entry
    refine (ih _ _).trans ?_
    rw [visitsOf, List.append_assoc]
    rfl

end Pool

/-! ## What becomes of single slots -/

namespace SlotQueues

variable {α σ : Type} {q q' : SlotQueues α} {i : Nat} {a : α} {vs : List (Pool.Visit α)}

/-- What visits leave of the queues. -/
structure Sifts (q : SlotQueues α) (vs : List (Pool.Visit α)) (q' : SlotQueues α) : Prop where
  free : q'.free = q.free ++ Pool.releasedSlots vs
  released : ∀ v ∈ vs, v.verdict = .release →
    q'.element v.handle.index = q.init v.left ∧
      q'.releases v.handle.index = q.releases v.handle.index + 1
  untouched : ∀ j ∉ vs.map (·.handle.index),
    q'.element j = q.element j ∧ q'.releases j = q.releases j

theorem Sifts.keep (h : (q.put i a).Sifts vs q') (shown : α) :
    q.Sifts ({ handle := q.handleAt i, shown, left := a, verdict := .keep } :: vs) q' := by
  refine ⟨?_, fun v hv hrelease => ?_, fun j hj => ?_⟩
  · rw [h.free, Pool.releasedSlots_cons_keep rfl]
    rfl
  · rcases List.mem_cons.1 hv with rfl | hv
    · cases hrelease
    · exact h.released v hv hrelease
  · rw [List.map_cons, List.mem_cons, not_or] at hj
    obtain ⟨helement, hreleases⟩ := h.untouched j hj.2
    exact ⟨helement.trans (Function.update_of_ne hj.1 ..), hreleases⟩

theorem release_put_of_ne {j : Nat} (hj : j ≠ i) :
    ((q.put i a).release i).element j = q.element j ∧
      ((q.put i a).release i).releases j = q.releases j :=
  ⟨(Function.update_of_ne hj ..).trans (Function.update_of_ne hj ..), Function.update_of_ne hj ..⟩

theorem Sifts.release (h : ((q.put i a).release i).Sifts vs q')
    (hi : i ∉ vs.map (·.handle.index)) (shown : α) :
    q.Sifts ({ handle := q.handleAt i, shown, left := a, verdict := .release } :: vs) q' := by
  refine ⟨?_, fun v hv hrelease => ?_, fun j hj => ?_⟩
  · rw [h.free, Pool.releasedSlots_cons_release rfl]
    exact List.append_assoc q.free [i] _
  · rcases List.mem_cons.1 hv with rfl | hv
    · -- the slot is not visited again
      obtain ⟨helement, hreleases⟩ := h.untouched i hi
      refine ⟨helement.trans ?_, hreleases.trans (Function.update_self ..)⟩
      refine (Function.update_self ..).trans (congrArg q.init ?_)
      exact Function.update_self ..
    · have hne : v.handle.index ≠ i := fun heq => hi (List.mem_map.2 ⟨v, hv, heq⟩)
      rw [← (release_put_of_ne (q := q) (a := a) hne).2]
      exact h.released v hv hrelease
  · rw [List.map_cons, List.mem_cons, not_or] at hj
    obtain ⟨helement, hreleases⟩ := h.untouched j hj.2
    have hother := release_put_of_ne (q := q) (a := a) hj.1
    exact ⟨helement.trans hother.1, hreleases.trans hother.2⟩

theorem sifts_foldl (visit : Pool.Visitor σ α) {rest : List Nat} (hrest : rest.Nodup) (s : σ)
    (n : Nat) (q : SlotQueues α) :
    q.Sifts (Pool.visitsOf visit s (rest.map fun i => (q.handleAt i, q.element i)))
      (rest.foldl (visitAt visit) (s, n, q)).2.2 := by
  induction rest generalizing s n q with
  | nil => exact ⟨(List.append_nil _).symm, nofun, fun _ _ => ⟨rfl, rfl⟩⟩
  | cons i rest ih =>
    obtain ⟨hi, hrest⟩ := List.nodup_cons.1 hrest
    have hne : ∀ j ∈ rest, j ≠ i := fun j hj => ne_of_mem_of_not_mem hj hi
    rw [List.map_cons, Pool.visitsOf, List.foldl_cons, visitAt]
    generalize visit s (q.handleAt i) (q.element i) = answer
    obtain ⟨s, a, verdict⟩ := answer
    cases verdict with
    | keep =>
      have hsame : ∀ j ∈ rest, (q.handleAt j, q.element j) =
          ((q.put i a).handleAt j, (q.put i a).element j) := fun j hj =>
        congrArg (q.handleAt j, ·) (Function.update_of_ne (hne j hj) ..).symm
      dsimp only
      rw [List.map_congr_left hsame]
      exact (ih hrest s n (q.put i a)).keep _
    | release =>
      have hsame : ∀ j ∈ rest, (q.handleAt j, q.element j) =
          (((q.put i a).release i).handleAt j, ((q.put i a).release i).element j) := fun j hj => by
        obtain ⟨helement, hreleases⟩ := release_put_of_ne (q := q) (a := a) (hne j hj)
        rw [helement, handleAt, handleAt, hreleases]
      have hunseen : i ∉ (Pool.visitsOf visit s (rest.map fun j =>
          (((q.put i a).release i).handleAt j, ((q.put i a).release i).element j))).map
            (·.handle.index) := by
        rw [Pool.map_index_visitsOf, List.map_map]
        exact fun hmem => hi ((List.map_id' rest) ▸ hmem)
      dsimp only
      rw [List.map_congr_left hsame]
      exact (ih hrest s (n + 1) ((q.put i a).release i)).release hunseen _

end SlotQueues

namespace Pool

variable {α σ : Type} {p : Pool α} {q : SlotQueues α} {visit : Visitor σ α} {s : σ}

/-! ## A sweep of a pool -/

theorem Sound.visits_eq {free alloc : List Nat} (h : p.Sound free alloc) (s : σ)
    (visit : Visitor σ α) :
    p.visits s visit = visitsOf visit s p.toList := by
  rw [visits, (sweep_spec (record visit) (s, []) h).state, visitList_eq, stateAfter_record,
    List.nil_append]

theorem Sound.sweep_eq {free alloc : List Nat} (h : p.Sound free alloc) {fuel : Nat}
    (hfuel : p.size ≤ fuel) :
    sweepFrom visit fuel p.allocatedList.head s 0 p = p.sweep s visit := by
  have hsize : p.size = alloc.length := h.alloc_holds.length
  have hcapacity : alloc.length ≤ p.capacity := by
    have := h.length_add
    omega
  rw [sweep, h.alloc_holds.head, h.sweepFrom_fuel visit [] (hsize ▸ hfuel),
    h.sweepFrom_fuel visit [] hcapacity]

theorem modifyAt_self {i : Nat} {a : α} (h : p.elements[i]? = some a) :
    (p.modifyAt i fun _ => a) = p := by
  obtain ⟨hi, rfl⟩ := Array.getElem?_eq_some_iff.1 h
  have helements : (p.elements.modify i fun _ => p.elements[i]) = p.elements := by
    refine Array.ext Array.size_modify fun j hj hj' => ?_
    rw [Array.getElem_modify]
    split
    · simp_all
    · rfl
  rw [modifyAt, helements]

theorem Sound.sweepFrom_idle {free : List Nat} (done : List Nat) {rest : List Nat}
    (h : p.Sound free (done ++ rest))
    (hidle : ∀ i ∈ rest, ∀ entry, p.entryAt i = some entry →
      visit s entry.1 entry.2 = (s, entry.2, .keep)) (fuel n : Nat) :
    sweepFrom visit fuel rest.head? s n p = (s, n, p) := by
  induction rest generalizing done fuel with
  | nil => cases fuel <;> rfl
  | cons i rest ih =>
    cases fuel with
    | zero => rfl
    | succ fuel =>
      obtain ⟨a, ha⟩ := h.element (i := i) (by simp)
      have hnext : (p.links.link i).next = rest.head? := by rw [h.alloc_holds.next_eq]
      have hkept := hidle i List.mem_cons_self _ (entryAt_eq ha)
      rw [List.head?_cons, sweepFrom]
      simp only [ha, hnext, hkept, modifyAt_self ha]
      exact ih (done ++ [i]) (by simpa using h) (fun j hj => hidle j (List.mem_cons_of_mem _ hj)) fuel

theorem Sound.sweep_idle {free alloc : List Nat} (h : p.Sound free alloc)
    (hidle : ∀ entry ∈ p.toList, visit s entry.1 entry.2 = (s, entry.2, .keep)) :
    p.sweep s visit = (s, 0, p) := by
  rw [sweep, h.alloc_holds.head]
  refine h.sweepFrom_idle [] (fun i hi entry hentry => hidle entry ?_) p.capacity 0
  rw [h.toList_eq]
  exact List.mem_filterMap.2 ⟨i, hi, hentry⟩

theorem sweep_record (p : Pool α) (s : σ) (visit : Visitor σ α) :
    ((p.sweep (s, []) (record visit)).1.1, (p.sweep (s, []) (record visit)).2) = p.sweep s visit :=
  sweepFrom_map Prod.fst (fun _ _ _ => rfl) p.capacity p.allocatedList.head (s, []) 0 p

/-- A free slot is not marked, and its generation is how often it was released. -/
theorem Mirrors.markAt_of_free (hm : p.Mirrors q) {i : Nat} (hi : i ∈ q.free) :
    p.markAt i = { generation := .ofNat (q.releases i), allocated := false } := by
  have hlt : i < p.capacity := hm.sound.links_size ▸ hm.sound.free_holds.lt i hi
  have hgeneration := hm.generation i hlt
  have hunmarked : (p.markAt i).allocated = false :=
    Bool.eq_false_iff.2 fun hmarked => hm.sound.disjoint i hi ((hm.sound.marked i).1 hmarked)
  rw [← hgeneration, ← hunmarked]

theorem Mirrors.sifts (hm : p.Mirrors q) (s : σ) (visit : Visitor σ α) :
    q.Sifts (p.visits s visit) (q.sweep s visit).2.2 := by
  rw [hm.sound.visits_eq, hm.toList_eq]
  exact SlotQueues.sifts_foldl visit hm.sound.alloc_holds.nodup s 0 q

theorem Sound.released_eq {free alloc : List Nat} (h : p.Sound free alloc) (s : σ)
    (visit : Visitor σ α) :
    (p.sweep s visit).2.1 = (releasedSlots (p.visits s visit)).length := by
  have hspec := (sweep_spec visit s h).released
  have hparts := length_kept_add (p.visits s visit)
  have hlength := congrArg List.length (map_shown_visitsOf visit s p.toList)
  rw [List.length_map, ← h.visits_eq, ← h.size_eq] at hlength
  rw [visitList_eq, ← h.visits_eq] at hspec
  dsimp only at hspec
  omega

theorem Mirrors.freed (hm : p.Mirrors q) {p' : Pool α} {q' : SlotQueues α} (hm' : p'.Mirrors q')
    (hcapacity : p'.capacity = p.capacity) {visits : List (Visit α)} (hsifts : q.Sifts visits q')
    {v : Visit α} (hv : v ∈ visits) (hrelease : v.verdict = .release)
    (hshown : (v.handle, v.shown) ∈ p.toList) :
    p'.elements[v.handle.index]? = some (p.init v.left) ∧
      p'.markAt v.handle.index = { generation := v.handle.generation + 1, allocated := false } := by
  obtain ⟨i, hi, hentry⟩ := List.mem_map.1 (hm.toList_eq ▸ hshown)
  obtain ⟨hhandle, -⟩ := Prod.mk.inj hentry
  obtain ⟨helement, hreleases⟩ := hsifts.released v hv hrelease
  have hqueued : v.handle.index ∈ q'.free := by
    rw [hsifts.free]
    refine List.mem_append_right _ (List.mem_map.2 ⟨v, List.mem_filter.2 ⟨hv, ?_⟩, rfl⟩)
    simp [hrelease]
  rw [hm'.markAt_of_free hqueued, hreleases, ← hm.init, ← helement, ← hhandle]
  exact ⟨hm'.element i (hcapacity ▸ hm.lt_of_mem hi),
    congrArg (SlotMark.mk · false) (UInt32.ofNat_add ..)⟩

theorem Mirrors.untouched (hm : p.Mirrors q) {p' : Pool α} {q' : SlotQueues α}
    (hm' : p'.Mirrors q') (hcapacity : p'.capacity = p.capacity) {visits : List (Visit α)}
    (hsifts : q.Sifts visits q') {i : Nat} (hi : i ∈ q.free)
    (hunseen : i ∉ visits.map (·.handle.index)) :
    p'.elements[i]? = p.elements[i]? ∧ p'.markAt i = p.markAt i := by
  have hlt : i < p.capacity := hm.sound.links_size ▸ hm.sound.free_holds.lt i hi
  have hqueued : i ∈ q'.free := hsifts.free ▸ List.mem_append_left _ hi
  obtain ⟨helement, hreleases⟩ := hsifts.untouched i hunseen
  rw [hm'.element i (hcapacity ▸ hlt), hm.element i hlt, helement, hm'.markAt_of_free hqueued,
    hm.markAt_of_free hi, hreleases]
  exact ⟨rfl, rfl⟩

theorem Mirrors.sifted (hm : p.Mirrors q) (s : σ) (visit : Visitor σ α) :
    p.Sifted s visit (p.visits s visit) (p.sweep s visit) := by
  have hsound := hm.sound
  have hspec := sweep_spec visit s hsound
  have hanswered := hsound.visits_eq s visit
  obtain ⟨-, -, hafter⟩ := hm.sweep s visit
  have hsifts := hm.sifts s visit
  have hcount := hsound.released_eq s visit
  have hrecorded := sweep_record p s visit
  have hends : ∀ fuel, p.size ≤ fuel → _ = p.sweep s visit := fun fuel => hsound.sweep_eq
  rw [visitList_eq, ← hanswered] at hspec
  generalize p.visits s visit = visits at *
  generalize p.sweep s visit = swept at *
  generalize q.sweep s visit = queues at *
  have hshown : visits.map (fun v => (v.handle, v.shown)) = p.toList :=
    hanswered ▸ map_shown_visitsOf visit s p.toList
  have hmem : ∀ v ∈ visits, (v.handle, v.shown) ∈ p.toList := fun v hv =>
    hshown ▸ List.mem_map.2 ⟨v, hv, rfl⟩
  have hlist : swept.2.2.toList = kept visits := hspec.toList
  have hfreed := fun v hv hrelease =>
    hm.freed hafter hspec.capacity hsifts hv hrelease (hmem v hv)
  refine ⟨hshown, ?_, fun v hv => ?_, hanswered, hspec.state, hrecorded, hends, hlist,
    fun v hv => ?_, ?_, hfreed, fun i hi => ?_, hcount, ?_⟩
  · have hnodup := hsound.nodup_handles
    rwa [← hshown, List.map_map] at hnodup
  · exact ⟨(hsound.isLive_of_mem (hmem v hv)).1, hsound.get?_of_mem (hmem v hv)⟩
  · cases hverdict : v.verdict with
    | keep =>
      have hkept : (v.handle, v.left) ∈ swept.2.2.toList := by
        rw [hlist]
        exact List.mem_map.2 ⟨v, List.mem_filter.2 ⟨hv, by simp [hverdict]⟩, rfl⟩
      exact (hafter.sound.isLive_of_mem hkept).1
    | release =>
      rw [Pool.isLive_eq, (hfreed v hv hverdict).2]
      rfl
  · rw [hafter.sound.freeSlots_eq, hsound.freeSlots_eq, hsifts.free]
  · rw [hsound.freeSlots_eq] at hi
    refine hm.untouched hafter hspec.capacity hsifts hi ?_
    rw [hanswered, map_index_visitsOf, hsound.map_index_toList]
    exact hsound.disjoint i hi
  · rw [freeCount, freeCount, hafter.sound.free_holds.length, hsound.free_holds.length, hcount,
      hsifts.free, List.length_append]

section Stateless

variable {act : α → α × Verdict} {visits : List (Visit α)} {swept : σ × Nat × Pool α}

theorem Sifted.visits_eq (h : p.Sifted s visit visits swept)
    (hact : ∀ s handle shown, (visit s handle shown).2 = act shown) :
    visits = p.toList.map fun entry =>
      { handle := entry.1, shown := entry.2, left := (act entry.2).1, verdict := (act entry.2).2 } :=
  h.answered.trans (visitsOf_of_forall hact s p.toList)

theorem Sifted.toList_eq (h : p.Sifted s visit visits swept)
    (hact : ∀ s handle shown, (visit s handle shown).2 = act shown) :
    swept.2.2.toList = (p.toList.filter fun entry => (act entry.2).2 = .keep).map fun entry =>
      (entry.1, (act entry.2).1) := by
  rw [h.toList, h.visits_eq hact, kept, List.filter_map, List.map_map]
  rfl

theorem Sifted.isLive_eq (h : p.Sifted s visit visits swept)
    (hact : ∀ s handle shown, (visit s handle shown).2 = act shown) {entry : Handle × α}
    (hmem : entry ∈ p.toList) :
    swept.2.2.isLive entry.1 = decide ((act entry.2).2 = .keep) :=
  h.isLive ⟨entry.1, entry.2, (act entry.2).1, (act entry.2).2⟩
    (h.visits_eq hact ▸ List.mem_map.2 ⟨entry, hmem, rfl⟩)

end Stateless

/-- A sweep of any pool that requests can lead to, by any visitor. -/
theorem sweep_sifts {capacity : Nat} {make : Nat → α} {init : α → α} {equal : α → α → Bool}
    (hp : ofFn capacity make init equal = .ok p) (requests : List (PoolRequest α)) (s : σ)
    (visit : Visitor σ α) :
    let p := (p.serve requests).2
    p.Sifted s visit (p.visits s visit) (p.sweep s visit) :=
  ((mirrors_of_ofFn hp).serve requests).2.sifted s visit

/-- Of four elements those with even keys are released, and the others count the visits before. -/
theorem sweep_sifts_even_keys :
    let pool := ofFn 5 (fun i => (i, 0)) (fun _ => (0, 0)) fun a b : Nat × Nat => a == b
    ∃ p : Pool (Nat × Nat), pool = .ok p ∧
      let p := (p.serve [.allocate, .set ⟨0, 0⟩ (2, 5), .allocate, .set ⟨1, 0⟩ (3, 5), .allocate,
        .set ⟨2, 0⟩ (4, 5), .allocate, .set ⟨3, 0⟩ (5, 5)]).2
      let visit : Visitor Nat (Nat × Nat) := fun seen _ entry =>
        (seen + 1, (entry.1, entry.2 + seen), if entry.1 % 2 = 0 then .release else .keep)
      let swept := p.sweep 0 visit
      swept.1 = 4 ∧ swept.2.1 = 2 ∧ swept.2.2.freeSlots = [4, 0, 2] ∧
        swept.2.2.toList = [(⟨1, 0⟩, (3, 6)), (⟨3, 0⟩, (5, 8))] := by
  intro pool
  obtain ⟨p, hp⟩ : ∃ p, pool = .ok p := ⟨_, rfl⟩
  refine ⟨p, hp, ?_⟩
  intro p' visit
  have hsifted : p'.Sifted 0 visit (p'.visits 0 visit) (p'.sweep 0 visit) := sweep_sifts hp _ 0 visit
  have hlist : p'.toList =
      [(⟨0, 0⟩, (2, 5)), (⟨1, 0⟩, (3, 5)), (⟨2, 0⟩, (4, 5)), (⟨3, 0⟩, (5, 5))] := by
    obtain rfl := Except.ok.inj hp
    decide +kernel
  have hfree : p'.freeSlots = [4] := by
    obtain rfl := Except.ok.inj hp
    decide +kernel
  clear_value p'
  have hvisits : p'.visits 0 visit =
      [⟨⟨0, 0⟩, (2, 5), (2, 5), .release⟩, ⟨⟨1, 0⟩, (3, 5), (3, 6), .keep⟩,
        ⟨⟨2, 0⟩, (4, 5), (4, 7), .release⟩, ⟨⟨3, 0⟩, (5, 5), (5, 8), .keep⟩] := by
    rw [hsifted.answered, hlist]
    rfl
  intro swept
  refine ⟨?_, ?_, ?_, ?_⟩
  · rw [hsifted.state, hlist]
    rfl
  · rw [hsifted.count, hvisits]
    rfl
  · rw [hsifted.freeSlots, hfree, hvisits]
    rfl
  · rw [hsifted.toList, hvisits]
    rfl

end Pool

end Osal
