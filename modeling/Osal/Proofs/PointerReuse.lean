import Mathlib.Data.List.Perm.Basic
import Mathlib.Data.List.Nodup
import Osal.Proofs.CapSpace

/-!
# How long pointers stay distinct

The counter of a capability space comes back to a pointer after `lap` mints, whether or not that pointer
is still held. So a pointer is held twice only if a capability is held for `lap` mints
(`nodup_of_young`), and a space with two slots can do that: `nodup_run_iff` says that all runs with `n`
mints hold distinct pointers just if `n` is at most `lap`.
-/

namespace Osal

namespace CapSpace

/-- How many pointers the counter goes through before it starts again. -/
def lap : Nat := 4294967295

/-- The pointer of a capability that was minted after a number of others. -/
def pointerAt (n : Nat) : CapPtr := .ofNat (n % lap + 1)

inductive Event (α : Type) where
  | mint (object : α) (badge : Badge) (rights : Rights)
  | revoke (p : CapPtr)

variable {α : Type}

/-- The space after a request, which stays as it is if it refuses. -/
def handle (s : CapSpace α) : Event α → CapSpace α
  | .mint object badge rights =>
    match s.mint object badge rights with
    | .ok (_, s') => s'
    | .error _ => s
  | .revoke p =>
    match s.revoke p with
    | .ok (_, s') => s'
    | .error _ => s

def run (s : CapSpace α) (events : List (Event α)) : CapSpace α := events.foldl handle s

def mints (s : CapSpace α) : Event α → Bool
  | .mint object badge rights => (s.mint object badge rights).isOk
  | .revoke _ => false

def minted (s : CapSpace α) : List (Event α) → Nat
  | [] => 0
  | event :: events => (s.mints event).toNat + (s.handle event).minted events

variable {s : CapSpace α} {n : Nat} {births : List Nat}

/-! ## The counter -/

theorem toNat_pointerAt (n : Nat) : (pointerAt n).toNat = n % lap + 1 := by
  have hlt : n % lap < lap := Nat.mod_lt n (by decide)
  rw [pointerAt, UInt32.toNat_ofNat_of_lt']
  rw [lap] at hlt ⊢
  rw [UInt32.size]
  omega

@[simp] theorem after_pointerAt (n : Nat) : after (pointerAt n) = pointerAt (n + 1) := by
  have hptr := toNat_pointerAt n
  have hnext := toNat_pointerAt (n + 1)
  have hsum : (pointerAt n + 1).toNat = (n % lap + 2) % 4294967296 := by
    rw [UInt32.toNat_add, hptr]
    rfl
  rw [lap] at *
  apply UInt32.toNat_inj.1
  rw [after]
  split
  case isTrue hzero =>
    rw [hzero] at hsum
    rw [hnext]
    have hlast : (0 : CapPtr).toNat = 0 := rfl
    have hfirst : (1 : CapPtr).toNat = 1 := rfl
    omega
  case isFalse hpos =>
    have hne : (pointerAt n + 1).toNat ≠ 0 := fun h => hpos (UInt32.toNat_inj.1 h)
    rw [hnext]
    omega

theorem pointerAt_inj {a b : Nat} (hptr : pointerAt a = pointerAt b) (hab : a ≤ b) (hlap : b < a + lap) :
    a = b := by
  have heq := congrArg UInt32.toNat hptr
  rw [toNat_pointerAt, toNat_pointerAt] at heq
  rw [lap] at *
  omega

/-! ## One request -/

theorem mint_pointers (object : α) (badge : Badge) (rights : Rights)
    (h : s.held.length < s.capacity) :
    s.mints (.mint object badge rights) = true ∧
      (s.handle (.mint object badge rights)).next = after s.next ∧
      (s.handle (.mint object badge rights)).capacity = s.capacity ∧
      (s.handle (.mint object badge rights)).pointers.Perm (s.next :: s.pointers) := by
  obtain ⟨s', hmint, hnext, -, hcapacity, front, back, hold, hnew⟩ := mint_of_lt object badge rights h
  have hs' : s.handle (.mint object badge rights) = s' := by simp only [handle, hmint]
  rw [hs', mints, hmint]
  refine ⟨rfl, hnext, hcapacity, ?_⟩
  rw [pointers, hnew, pointers, hold]
  exact List.perm_middle.map _

theorem revoke_pointers {p : CapPtr} (h : p ∈ s.pointers) :
    (s.handle (.revoke p)).next = s.next ∧ (s.handle (.revoke p)).capacity = s.capacity ∧
      s.pointers.Perm (p :: (s.handle (.revoke p)).pointers) := by
  obtain ⟨cap, s', hrevoke, hnext, -, hcapacity, front, back, hold, hnew⟩ := revoke_of_mem h
  have hs' : s.handle (.revoke p) = s' := by simp only [handle, hrevoke]
  rw [hs']
  refine ⟨hnext, hcapacity, ?_⟩
  rw [pointers, hold, pointers, hnew]
  exact List.perm_middle.map _

@[simp] theorem length_pointers (s : CapSpace α) : s.pointers.length = s.held.length := List.length_map _

/-! ## Births -/

/-- After `n` mints a space holds the capabilities of some births, each with the pointer of the
time. -/
structure Aged (s : CapSpace α) (n : Nat) (births : List Nat) : Prop where
  next : s.next = pointerAt n
  pointers : s.pointers.Perm (births.map pointerAt)
  nodup : births.Nodup
  past : ∀ b ∈ births, b < n

theorem aged_empty (capacity : Nat) : (empty capacity : CapSpace α).Aged 0 [] := by
  exact ⟨rfl, by simp [pointers], List.nodup_nil, nofun⟩

theorem Aged.handle (h : s.Aged n births) (event : Event α) :
    ∃ births', (s.handle event).Aged (n + (s.mints event).toNat) births' := by
  cases event with
  | mint object badge rights =>
    rcases Nat.lt_or_ge s.held.length s.capacity with hlt | hge
    · obtain ⟨hmints, hnext, -, hpointers⟩ := mint_pointers object badge rights hlt
      rw [hmints]
      refine ⟨n :: births, ?_, ?_, ?_, ?_⟩
      · simp [hnext, h.next]
      · rw [h.next] at hpointers
        exact hpointers.trans (h.pointers.cons _)
      · exact List.nodup_cons.2 ⟨fun hmem => Nat.lt_irrefl n (h.past n hmem), h.nodup⟩
      · intro b hb
        rcases List.mem_cons.1 hb with rfl | hb
        · exact Nat.lt_succ_self b
        · exact Nat.lt_succ_of_lt (h.past b hb)
    · have hfull := mint_of_full object badge rights (Nat.le_antisymm s.length_held_le hge)
      simp only [CapSpace.handle, mints, hfull]
      exact ⟨births, h⟩
  | revoke p =>
    by_cases hp : p ∈ s.pointers
    · obtain ⟨hnext, -, hpointers⟩ := revoke_pointers hp
      obtain ⟨b, hb, rfl⟩ := List.mem_map.1 (h.pointers.mem_iff.1 hp)
      have herase := List.perm_cons_erase hb
      refine ⟨births.erase b, hnext.trans h.next, ?_, h.nodup.erase b, ?_⟩
      · exact ((hpointers.symm.trans h.pointers).trans (herase.map pointerAt)).cons_inv
      · exact fun c hc => h.past c (List.mem_of_mem_erase hc)
    · simp only [CapSpace.handle, mints, revoke_of_notMem hp]
      exact ⟨births, h⟩

theorem Aged.run (h : s.Aged n births) (events : List (Event α)) :
    ∃ births', (s.run events).Aged (n + s.minted events) births' := by
  induction events generalizing s n births with
  | nil => exact ⟨births, h⟩
  | cons event events ih =>
    obtain ⟨births', h'⟩ := h.handle event
    obtain ⟨births'', h''⟩ := ih h'
    rw [Nat.add_assoc] at h''
    exact ⟨births'', h''⟩

theorem nodup_of_young (h : s.Aged n births) (hyoung : ∀ b ∈ births, n ≤ b + lap) :
    s.pointers.Nodup := by
  refine h.pointers.nodup_iff.2 (h.nodup.map_on fun a ha b hb hptr => ?_)
  have hpast := h.past a ha
  have hpast' := h.past b hb
  rcases Nat.le_total a b with hab | hba
  · exact pointerAt_inj hptr hab (Nat.lt_of_lt_of_le hpast' (hyoung a ha))
  · exact (pointerAt_inj hptr.symm hba (Nat.lt_of_lt_of_le hpast (hyoung b hb))).symm

/-! ## A lap -/

/-- Mint a capability and revoke it, some times over. -/
def churn (object : α) (badge : Badge) (rights : Rights) (n : Nat) : Nat → List (Event α)
  | 0 => []
  | k + 1 => .mint object badge rights :: .revoke (pointerAt n) :: churn object badge rights (n + 1) k

theorem run_churn (object : α) (badge : Badge) (rights : Rights) (k : Nat)
    (hnext : s.next = pointerAt n) (hroom : s.held.length < s.capacity) :
    s.minted (churn object badge rights n k) = k ∧
      (s.run (churn object badge rights n k)).next = pointerAt (n + k) ∧
      (s.run (churn object badge rights n k)).capacity = s.capacity ∧
      (s.run (churn object badge rights n k)).pointers.Perm s.pointers := by
  induction k generalizing s n with
  | zero => exact ⟨rfl, hnext, rfl, List.Perm.refl _⟩
  | succ k ih =>
    obtain ⟨hmints, hnext', hcapacity, hpointers⟩ := mint_pointers object badge rights hroom
    rw [hnext] at hpointers
    obtain ⟨hnext'', hcapacity', hpointers'⟩ :=
      revoke_pointers (hpointers.mem_iff.2 (List.mem_cons_self ..))
    -- what was minted was revoked
    have hback := (hpointers'.symm.trans hpointers).cons_inv
    have hroom' := hback.length_eq
    rw [length_pointers, length_pointers] at hroom'
    obtain ⟨hminted, hlast, hcapacity'', hkept⟩ := ih
      (by rw [hnext'', hnext', hnext, after_pointerAt])
      (by rw [hroom', hcapacity', hcapacity]; exact hroom)
    refine ⟨?_, ?_, ?_, hkept.trans hback⟩
    · rw [churn, minted, minted, hmints, hminted, Bool.toNat_true, mints, Bool.toNat_false]
      omega
    · rw [show n + (k + 1) = n + 1 + k by omega]
      exact hlast
    · exact hcapacity''.trans (hcapacity'.trans hcapacity)

@[simp] theorem minted_append (s : CapSpace α) (front back : List (Event α)) :
    s.minted (front ++ back) = s.minted front + (s.run front).minted back := by
  induction front generalizing s with
  | nil => exact (Nat.zero_add _).symm
  | cons event front ih =>
    rw [List.cons_append, minted, minted, ih, Nat.add_assoc]
    rfl

/-- A capability that is held for a lap shares its pointer with the one that is minted then. -/
theorem exists_shared (object : α) (badge : Badge) (rights : Rights) (hnext : s.next = pointerAt n)
    (hroom : s.held.length + 2 ≤ s.capacity) :
    ∃ events, s.minted events = lap + 1 ∧
      (s.run events).pointers.Perm (pointerAt n :: pointerAt n :: s.pointers) := by
  obtain ⟨k, hk⟩ : ∃ k, lap = k + 1 := ⟨4294967294, rfl⟩
  obtain ⟨hmints, hnext₁, hcapacity₁, hpointers₁⟩ :=
    mint_pointers (s := s) object badge rights (by omega)
  rw [hnext, after_pointerAt] at hnext₁
  rw [hnext] at hpointers₁
  have hlength₁ := hpointers₁.length_eq
  rw [List.length_cons, length_pointers, length_pointers] at hlength₁
  obtain ⟨hminted, hnext₂, hcapacity₂, hpointers₂⟩ :=
    run_churn object badge rights k hnext₁ (by omega)
  -- the counter is back, and the first capability is still held
  have hlap : pointerAt (n + 1 + k) = pointerAt n := by
    rw [pointerAt, pointerAt, Nat.add_right_comm, Nat.add_assoc, ← hk, Nat.add_mod_right]
  rw [hlap] at hnext₂
  have hlength₂ := hpointers₂.length_eq
  rw [length_pointers, length_pointers] at hlength₂
  obtain ⟨hmints', -, -, hpointers₃⟩ :=
    mint_pointers (s := (s.handle (.mint object badge rights)).run
      (churn object badge rights (n + 1) k)) object badge rights (by omega)
  rw [hnext₂] at hpointers₃
  refine ⟨.mint object badge rights :: (churn object badge rights (n + 1) k ++
    [.mint object badge rights]), ?_, ?_⟩
  · rw [minted, minted_append, hmints, hminted, minted, hmints', minted, hk]
    exact Nat.add_comm ..
  · rw [run, List.foldl_cons, List.foldl_append]
    exact hpointers₃.trans ((hpointers₂.trans hpointers₁).cons _)

/-- Pointers are distinct after `n` mints, whatever else happened, just if that is no more than a
lap. -/
theorem nodup_run_iff [Nonempty α] {capacity : Nat} (hcapacity : 2 ≤ capacity) (n : Nat) :
    (∀ events : List (Event α), (empty capacity : CapSpace α).minted events = n →
      ((empty capacity).run events).pointers.Nodup) ↔ n ≤ lap := by
  constructor
  · intro hdistinct
    by_contra hlong
    obtain ⟨object⟩ := ‹Nonempty α›
    obtain ⟨k, rfl⟩ : ∃ k, n = k + (lap + 1) := ⟨n - (lap + 1), by omega⟩
    have hroom : (empty capacity : CapSpace α).held.length + 2 ≤ (empty capacity : CapSpace α).capacity := by
      rw [held_empty, CapSpace.capacity, empty, List.length_replicate]
      exact hcapacity
    -- mints that leave nothing behind, and then a lap
    obtain ⟨hminted, hnext, hkept, hpointers⟩ := run_churn (s := empty capacity) object 0 .all k
      (show _ = pointerAt 0 from rfl) (by omega)
    have hlength := hpointers.length_eq
    rw [length_pointers, length_pointers] at hlength
    obtain ⟨events, hminted', hshared⟩ := exists_shared object 0 .all hnext (by omega)
    have hnodup := hdistinct (churn object 0 .all 0 k ++ events)
      (by simp [hminted, hminted'])
    rw [run, List.foldl_append] at hnodup
    simpa using hshared.nodup_iff.1 hnodup
  · intro hlap events hminted
    obtain ⟨births, haged⟩ := (aged_empty capacity).run events
    refine nodup_of_young haged fun b hb => ?_
    omega

end CapSpace

end Osal
