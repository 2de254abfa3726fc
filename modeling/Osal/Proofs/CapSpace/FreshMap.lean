import Mathlib.Data.Finmap
import Osal.Proofs.PointerReuse

/-!
# A capability space as a finite map

`FreshMap` is what a capability space stands for: a finite map that gives out its keys itself.
`refines_fresh_map`: as long as the counter has not gone round, a space answers every run of requests
as the map does, and no key is given out twice. Which slot a capability is in, and that the number of
capabilities is kept apart from them, cannot be told from the answers.
-/

namespace Osal

/-- A right that is requested is not held. -/
def Rights.Lacks (held requested : Rights) : Prop :=
  ∃ i, requested.bits.toNat.testBit i = true ∧ held.bits.toNat.testBit i = false

theorem Rights.contains_eq_false_iff {held requested : Rights} :
    held.contains requested = false ↔ held.Lacks requested := by
  have hbits : held.bits &&& requested.bits = requested.bits ↔
      ∀ i, (held.bits.toNat.testBit i && requested.bits.toNat.testBit i) =
        requested.bits.toNat.testBit i := by
    rw [← UInt8.toNat_inj, UInt8.toNat_and]
    simp only [← Nat.testBit_and]
    exact ⟨fun h i => by rw [h], Nat.eq_of_testBit_eq⟩
  rw [contains, beq_eq_false_iff_ne, ne_eq, hbits, Lacks, not_forall]
  refine exists_congr fun i => ?_
  cases held.bits.toNat.testBit i <;> cases requested.bits.toNat.testBit i <;> simp

/-- A finite map from pointers to capabilities that chooses the pointers. -/
structure FreshMap (α : Type) where
  capacity : Nat
  /-- How many keys were given out. -/
  issued : Nat := 0
  entries : Finmap fun _ : CapPtr => Capability α := ∅

/-- What can be asked of a capability space. -/
inductive CapRequest (α : Type) where
  | mint (cap : Capability α)
  | lookup (p : CapPtr)
  | lookupWith (p : CapPtr) (rights : Rights)
  | revoke (p : CapPtr)
  | size

/-- What a capability space answers. -/
inductive CapAnswer (α : Type) where
  | minted (p : CapPtr)
  | found (cap : Option (Capability α))
  | granted (object : α)
  | revoked (cap : Capability α)
  | counted (n : Nat)
  | refused (cause : PlatformError)
  deriving DecidableEq

namespace CapAnswer

variable {α : Type}

def failed : CapAnswer α → Bool
  | .refused _ => true
  | _ => false

def minted? : CapAnswer α → Option CapPtr
  | .minted p => some p
  | _ => none

def mintedIn (answers : List (CapAnswer α)) : List CapPtr := answers.filterMap minted?

theorem mintedIn_cons (answer : CapAnswer α) (answers : List (CapAnswer α)) :
    mintedIn (answer :: answers) = answer.minted?.toList ++ mintedIn answers := by
  rw [mintedIn, List.filterMap_cons]
  cases answer.minted? <;> rfl

end CapAnswer

namespace FreshMap

variable {α : Type}

def size (m : FreshMap α) : Nat := m.entries.keys.card

def nextKey (m : FreshMap α) : CapPtr := CapSpace.pointerAt m.issued

def perform (m : FreshMap α) : CapRequest α → CapAnswer α × FreshMap α
  | .mint cap =>
    if m.size = m.capacity then (.refused (.outOfSlots m.capacity), m)
    else (.minted m.nextKey,
      { m with issued := m.issued + 1, entries := m.entries.insert m.nextKey cap })
  | .lookup p => (.found (m.entries.lookup p), m)
  | .lookupWith p rights =>
    match m.entries.lookup p with
    | none => (.refused (.invalidCapability p), m)
    | some cap =>
      if cap.rights.contains rights then (.granted cap.object, m)
      else (.refused (.insufficientRights p), m)
  | .revoke p =>
    match m.entries.lookup p with
    | none => (.refused (.invalidCapability p), m)
    | some cap => (.revoked cap, { m with entries := m.entries.erase p })
  | .size => (.counted m.size, m)

def serve (m : FreshMap α) : List (CapRequest α) → List (CapAnswer α) × FreshMap α
  | [] => ([], m)
  | request :: requests =>
    let (answer, m) := m.perform request
    let (answers, m) := serve m requests
    (answer :: answers, m)

theorem perform_minted (m : FreshMap α) (request : CapRequest α) :
    ((m.perform request).1.minted? = none ∧ (m.perform request).2.issued = m.issued) ∨
      ((m.perform request).1.minted? = some m.nextKey ∧
        (m.perform request).2.issued = m.issued + 1) := by
  cases request with
  | mint cap =>
    rw [perform]
    split
    · exact .inl ⟨rfl, rfl⟩
    · exact .inr ⟨rfl, rfl⟩
  | lookup p => exact .inl ⟨rfl, rfl⟩
  | lookupWith p rights =>
    rw [perform]
    split
    · exact .inl ⟨rfl, rfl⟩
    · split <;> exact .inl ⟨rfl, rfl⟩
  | revoke p =>
    rw [perform]
    split <;> exact .inl ⟨rfl, rfl⟩
  | size => exact .inl ⟨rfl, rfl⟩

theorem mintedIn_serve (m : FreshMap α) (requests : List (CapRequest α)) :
    CapAnswer.mintedIn (m.serve requests).1 =
      (List.range' m.issued (CapAnswer.mintedIn (m.serve requests).1).length).map
        CapSpace.pointerAt := by
  induction requests generalizing m with
  | nil => rfl
  | cons request requests ih =>
    have hrest := ih (m.perform request).2
    rw [serve, CapAnswer.mintedIn_cons]
    rcases m.perform_minted request with ⟨hnone, hissued⟩ | ⟨hsome, hissued⟩
    · rw [hissued] at hrest
      rw [hnone]
      exact hrest
    · rw [hissued] at hrest
      rw [hsome]
      exact congrArg (m.nextKey :: ·) hrest

end FreshMap

namespace CapSpace

variable {α : Type}

/-- The answer of a space, and the space after it; a request that is refused leaves it as it was. -/
def perform (s : CapSpace α) : CapRequest α → CapAnswer α × CapSpace α
  | .mint cap =>
    match s.mint cap.object cap.badge cap.rights with
    | .ok (p, s) => (.minted p.1, s)
    | .error e => (.refused e, s)
  | .lookup p => (.found (s.lookup p), s)
  | .lookupWith p rights =>
    match s.lookupWith p rights with
    | .ok object => (.granted object, s)
    | .error e => (.refused e, s)
  | .revoke p =>
    match s.revoke p with
    | .ok (cap, s) => (.revoked cap, s)
    | .error e => (.refused e, s)
  | .size => (.counted s.size, s)

def serve (s : CapSpace α) : List (CapRequest α) → List (CapAnswer α) × CapSpace α
  | [] => ([], s)
  | request :: requests =>
    let (answer, s) := s.perform request
    let (answers, s) := serve s requests
    (answer :: answers, s)

/-- The space holds what the map says. -/
structure Mirrors (s : CapSpace α) (m : FreshMap α) : Prop where
  sound : s.Sound
  lookup : ∀ p, s.lookup p = m.entries.lookup p
  next : s.next = m.nextKey
  /-- What is held was given out. -/
  issued : ∀ p ∈ s.pointers, ∃ n < m.issued, p = pointerAt n
  capacity : s.capacity = m.capacity

variable {s s' : CapSpace α} {m : FreshMap α} {p : CapPtr}

theorem mirrors_empty (capacity : Nat) : (empty capacity : CapSpace α).Mirrors { capacity } := by
  have hpointers : (empty capacity : CapSpace α).pointers = [] := by
    simp only [pointers, held_empty]
    rfl
  refine ⟨sound_empty capacity, fun p => ?_, rfl, ?_, List.length_replicate⟩
  · rw [lookup, held_empty]
    rfl
  · rw [hpointers]
    exact fun p hp => absurd hp List.not_mem_nil

namespace Mirrors

theorem mem_iff (hm : s.Mirrors m) : p ∈ m.entries ↔ p ∈ s.pointers := by
  rw [← Finmap.lookup_isSome, ← hm.lookup, Option.isSome_iff_ne_none, ne_eq, lookup_eq_none_iff,
    not_not]

theorem held_eq (hm : s.Mirrors m) : s.held.length = m.size := by
  have hkeys : m.entries.keys = s.pointers.toFinset := by
    ext p
    rw [Finmap.mem_keys, List.mem_toFinset, hm.mem_iff]
  rw [FreshMap.size, hkeys, List.toFinset_card_of_nodup hm.sound.nodup, length_pointers]

theorem size_eq (hm : s.Mirrors m) : s.size = m.size := hm.sound.count_eq.trans hm.held_eq

theorem size_le (hm : s.Mirrors m) : m.size ≤ m.capacity := by
  rw [← hm.held_eq, ← hm.capacity]
  exact s.length_held_le

/-- A pointer that the counter has not come back to is not held. -/
theorem nextKey_fresh (hm : s.Mirrors m) (hlap : m.issued < lap) : m.nextKey ∉ s.pointers := by
  intro hmem
  obtain ⟨n, hn, heq⟩ := hm.issued _ hmem
  exact absurd (pointerAt_inj heq.symm hn.le (by omega)) hn.ne

theorem mint (hm : s.Mirrors m) (hroom : m.size < m.capacity) (hlap : m.issued < lap)
    (cap : Capability α) :
    ∃ s', s.mint cap.object cap.badge cap.rights = .ok (⟨s.next, s.next_ne_null⟩, s') ∧
      s'.Mirrors { m with issued := m.issued + 1, entries := m.entries.insert m.nextKey cap } := by
  obtain ⟨s', hmint, hnext, hcount, hcapacity, front, back, hold, hnew⟩ :=
    s.mint_of_lt cap.object cap.badge cap.rights (hm.held_eq ▸ hm.capacity ▸ hroom)
  have hentry : s.mintedEntry cap.object cap.badge cap.rights = (m.nextKey, cap) := by
    rw [mintedEntry, hm.next]
  rw [hentry] at hnew
  have hsound := hm.sound.insert (hm.nextKey_fresh hlap) hold hnew hcount
  refine ⟨s', hmint, hsound, fun p => ?_, ?_, fun p hp => ?_, hcapacity.trans hm.capacity⟩
  · by_cases hp : p = m.nextKey
    · rw [hp, Finmap.lookup_insert, hsound.lookup_eq_some_iff, hnew]
      exact List.mem_append_right _ List.mem_cons_self
    · rw [Finmap.lookup_insert_of_ne _ hp, ← hm.lookup]
      exact lookup_of_insert hold hnew hp
  · rw [hnext, hm.next]
    exact after_pointerAt m.issued
  · rw [pointers, hnew, (List.perm_middle.map _).mem_iff, List.map_cons, ← hold] at hp
    rcases List.mem_cons.1 hp with rfl | hp
    · exact ⟨m.issued, Nat.lt_succ_self _, rfl⟩
    · obtain ⟨n, hn, rfl⟩ := hm.issued p hp
      exact ⟨n, Nat.lt_succ_of_lt hn, rfl⟩

theorem revoke (hm : s.Mirrors m) {cap : Capability α} (hp : m.entries.lookup p = some cap) :
    ∃ s', s.revoke p = .ok (cap, s') ∧ s'.Mirrors { m with entries := m.entries.erase p } := by
  have hmem : p ∈ s.pointers := hm.mem_iff.1 (Finmap.mem_of_lookup_eq_some hp)
  obtain ⟨cap', s', hrevoke, hnext, hcount, hcapacity, front, back, hold, hnew⟩ := revoke_of_mem hmem
  obtain rfl : cap = cap' := by
    have hheld : (p, cap') ∈ s.held := hold ▸ List.mem_append_right _ List.mem_cons_self
    rw [← hm.lookup, hm.sound.lookup_eq_some_iff.2 hheld] at hp
    exact (Option.some.inj hp).symm
  have hpointers : s.pointers.Perm (p :: s'.pointers) := by
    rw [pointers, hold, pointers, hnew]
    exact List.perm_middle.map _
  have hgone : p ∉ s'.pointers := (List.nodup_cons.1 (hpointers.nodup_iff.1 hm.sound.nodup)).1
  refine ⟨s', hrevoke, hm.sound.erase hold hnew hcount, fun q => ?_, hnext.trans hm.next,
    fun q hq => ?_, hcapacity.trans hm.capacity⟩
  · by_cases hq : q = p
    · rw [hq, Finmap.lookup_erase, lookup_eq_none_iff]
      exact hgone
    · rw [Finmap.lookup_erase_ne hq, ← hm.lookup]
      exact (lookup_of_insert hnew hold hq).symm
  · exact hm.issued q (hpointers.mem_iff.2 (List.mem_cons_of_mem _ hq))

theorem perform (hm : s.Mirrors m) (request : CapRequest α)
    (hlap : m.issued + ((s.perform request).1.minted?.toList).length ≤ lap) :
    (s.perform request).1 = (m.perform request).1 ∧
      (s.perform request).2.Mirrors (m.perform request).2 := by
  cases request with
  | mint cap =>
    rcases Nat.lt_or_eq_of_le hm.size_le with hroom | hfull
    · obtain ⟨_, hminted, -⟩ := s.mint_of_lt cap.object cap.badge cap.rights
        (hm.held_eq ▸ hm.capacity ▸ hroom)
      rw [CapSpace.perform, hminted] at hlap
      obtain ⟨s', hmint, hafter⟩ := hm.mint hroom hlap cap
      rw [CapSpace.perform, FreshMap.perform, if_neg hroom.ne, hmint]
      exact ⟨congrArg CapAnswer.minted hm.next, hafter⟩
    · rw [CapSpace.perform, FreshMap.perform]
      have hrefused := mint_of_full cap.object cap.badge cap.rights
        (hm.held_eq.trans (hfull.trans hm.capacity.symm))
      rw [if_pos hfull, hrefused, hm.capacity]
      exact ⟨rfl, hm⟩
  | lookup p => exact ⟨congrArg CapAnswer.found (hm.lookup p), hm⟩
  | lookupWith p rights =>
    rw [CapSpace.perform, FreshMap.perform, lookupWith, hm.lookup]
    cases m.entries.lookup p with
    | none => exact ⟨rfl, hm⟩
    | some cap =>
      dsimp only
      cases cap.rights.contains rights with
      | true => exact ⟨rfl, hm⟩
      | false => exact ⟨rfl, hm⟩
  | revoke p =>
    rw [CapSpace.perform, FreshMap.perform]
    cases hp : m.entries.lookup p with
    | none =>
      have hnotin : p ∉ s.pointers := by
        rw [← lookup_eq_none_iff, hm.lookup, hp]
      rw [revoke_of_notMem hnotin]
      exact ⟨rfl, hm⟩
    | some cap =>
      obtain ⟨s', hrevoke, hafter⟩ := hm.revoke hp
      rw [hrevoke]
      exact ⟨rfl, hafter⟩
  | size => exact ⟨congrArg CapAnswer.counted hm.size_eq, hm⟩

theorem serve (hm : s.Mirrors m) (requests : List (CapRequest α))
    (hlap : m.issued + (CapAnswer.mintedIn (s.serve requests).1).length ≤ lap) :
    (s.serve requests).1 = (m.serve requests).1 ∧
      (s.serve requests).2.Mirrors (m.serve requests).2 := by
  induction requests generalizing s m with
  | nil => exact ⟨rfl, hm⟩
  | cons request requests ih =>
    rw [CapSpace.serve, CapAnswer.mintedIn_cons, List.length_append] at hlap
    obtain ⟨hanswer, hnext⟩ := hm.perform request (by omega)
    have hissued : (m.perform request).2.issued =
        m.issued + (s.perform request).1.minted?.toList.length := by
      rcases m.perform_minted request with ⟨hnone, hissued⟩ | ⟨hsome, hissued⟩
      · rw [hissued, hanswer, hnone]
        rfl
      · rw [hissued, hanswer, hsome]
        rfl
    obtain ⟨hanswers, hlast⟩ := ih hnext (by rw [hissued, Nat.add_assoc]; exact hlap)
    exact ⟨congrArg₂ List.cons hanswer hanswers, hlast⟩

end Mirrors

/-- All that can be seen of a space is what the map says. -/
structure Agrees (s : CapSpace α) (m : FreshMap α) : Prop where
  lookup : ∀ p, s.lookup p = m.entries.lookup p
  granted : ∀ p rights object, s.lookupWith p rights = .ok object ↔
    ∃ cap, m.entries.lookup p = some cap ∧ ¬ cap.rights.Lacks rights ∧ cap.object = object
  insufficient : ∀ p rights, s.lookupWith p rights = .error (.insufficientRights p) ↔
    ∃ cap, m.entries.lookup p = some cap ∧ cap.rights.Lacks rights
  invalid : ∀ p rights, s.lookupWith p rights = .error (.invalidCapability p) ↔ p ∉ m.entries
  revoked : ∀ p cap, (∃ s', s.revoke p = .ok (cap, s')) ↔ m.entries.lookup p = some cap
  /-- A capability goes alone. -/
  removed : ∀ p cap s', s.revoke p = .ok (cap, s') →
    ∀ q, s'.lookup q = if q = p then none else s.lookup q
  irrevocable : ∀ p, s.revoke p = .error (.invalidCapability p) ↔ p ∉ m.entries
  minted : ∀ object badge rights,
    (∃ answer, s.mint object badge rights = .ok answer) ↔ m.size < m.capacity
  full : ∀ object badge rights,
    s.mint object badge rights = .error (.outOfSlots m.capacity) ↔ m.size = m.capacity
  size : s.size = m.size
  /-- What is refused changes nothing. -/
  unchanged : ∀ request, (s.perform request).1.failed = true → (s.perform request).2 = s

theorem perform_failed {request : CapRequest α} (hfailed : (s.perform request).1.failed = true) :
    (s.perform request).2 = s := by
  cases request with
  | lookup p => rfl
  | size => rfl
  | _ =>
    simp only [perform] at hfailed ⊢
    split at hfailed
    · cases hfailed
    · rfl

theorem Mirrors.granted_iff (hm : s.Mirrors m) {rights : Rights} {object : α} :
    s.lookupWith p rights = .ok object ↔
      ∃ cap, m.entries.lookup p = some cap ∧ ¬ cap.rights.Lacks rights ∧ cap.object = object := by
  rw [lookupWith, hm.lookup]
  cases m.entries.lookup p with
  | none => simp
  | some cap => simp [← Rights.contains_eq_false_iff, ite_eq_iff]

theorem Mirrors.insufficient_iff (hm : s.Mirrors m) {rights : Rights} :
    s.lookupWith p rights = .error (.insufficientRights p) ↔
      ∃ cap, m.entries.lookup p = some cap ∧ cap.rights.Lacks rights := by
  rw [lookupWith, hm.lookup]
  cases m.entries.lookup p with
  | none => simp
  | some cap => simp [Rights.contains_eq_false_iff]

theorem Mirrors.invalid_iff (hm : s.Mirrors m) {rights : Rights} :
    s.lookupWith p rights = .error (.invalidCapability p) ↔ p ∉ m.entries := by
  rw [lookupWith, hm.lookup, ← Finmap.lookup_eq_none]
  cases m.entries.lookup p with
  | none => simp
  | some cap => simp [ite_eq_iff]

theorem Mirrors.irrevocable_iff (hm : s.Mirrors m) :
    s.revoke p = .error (.invalidCapability p) ↔ p ∉ m.entries := by
  constructor
  · intro hrefused hmem
    obtain ⟨cap, hp⟩ := Finmap.mem_iff.1 hmem
    obtain ⟨s', hrevoke, -⟩ := hm.revoke hp
    rw [hrevoke] at hrefused
    cases hrefused
  · exact fun hp => revoke_of_notMem fun hmem => hp (hm.mem_iff.2 hmem)

theorem Mirrors.lookup_of_revoke (hm : s.Mirrors m) {cap : Capability α}
    (hrevoke : s.revoke p = .ok (cap, s')) :
    m.entries.lookup p = some cap ∧ ∀ q, s'.lookup q = if q = p then none else s.lookup q := by
  cases hp : m.entries.lookup p with
  | none =>
    rw [hm.irrevocable_iff.2 (Finmap.lookup_eq_none.1 hp)] at hrevoke
    cases hrevoke
  | some cap' =>
    obtain ⟨s'', hrevoke', hafter⟩ := hm.revoke hp
    obtain ⟨rfl, rfl⟩ := Prod.mk.inj (Except.ok.inj (hrevoke.symm.trans hrevoke'))
    refine ⟨rfl, fun q => ?_⟩
    rw [hafter.lookup]
    split
    case isTrue heq => rw [heq, Finmap.lookup_erase]
    case isFalse hne => rw [Finmap.lookup_erase_ne hne, hm.lookup]

theorem Mirrors.mint_cases (hm : s.Mirrors m) (object : α) (badge : Badge) (rights : Rights) :
    (m.size < m.capacity ∧ ∃ answer, s.mint object badge rights = .ok answer) ∨
      (m.size = m.capacity ∧
        s.mint object badge rights = .error (.outOfSlots m.capacity)) := by
  rcases Nat.lt_or_eq_of_le hm.size_le with hroom | hfull
  · obtain ⟨s', hmint, -⟩ := s.mint_of_lt object badge rights (hm.held_eq ▸ hm.capacity ▸ hroom)
    exact .inl ⟨hroom, _, hmint⟩
  · refine .inr ⟨hfull, ?_⟩
    rw [← hm.capacity]
    exact mint_of_full object badge rights (hm.held_eq.trans (hfull.trans hm.capacity.symm))

theorem Mirrors.agrees (hm : s.Mirrors m) : s.Agrees m where
  lookup := hm.lookup
  granted := fun _ _ _ => hm.granted_iff
  insufficient := fun _ _ => hm.insufficient_iff
  invalid := fun _ _ => hm.invalid_iff
  revoked := fun p cap =>
    ⟨fun ⟨_, hrevoke⟩ => (hm.lookup_of_revoke hrevoke).1, fun hp =>
      (hm.revoke hp).imp fun _ hrevoke => hrevoke.1⟩
  removed := fun _ _ _ hrevoke => (hm.lookup_of_revoke hrevoke).2
  irrevocable := fun _ => hm.irrevocable_iff
  minted := fun object badge rights => by
    rcases hm.mint_cases object badge rights with ⟨hroom, hmint⟩ | ⟨hfull, hmint⟩
    · exact iff_of_true hmint hroom
    · simp [hmint, hfull]
  full := fun object badge rights => by
    rcases hm.mint_cases object badge rights with ⟨hroom, answer, hmint⟩ | ⟨hfull, hmint⟩
    · simp [hmint, hroom.ne]
    · exact iff_of_true hmint hfull
  size := hm.size_eq
  unchanged := fun _ => perform_failed

/-- A space answers every run of requests as a finite map that never gives out a key twice. -/
theorem refines_fresh_map (capacity : Nat) (requests : List (CapRequest α))
    (hlap : (CapAnswer.mintedIn ((empty capacity).serve requests).1).length ≤ lap) :
    let served := (empty capacity).serve requests
    let map := ({ capacity } : FreshMap α).serve requests
    served.1 = map.1 ∧ (CapAnswer.mintedIn served.1).Nodup ∧ 0 ∉ CapAnswer.mintedIn served.1 ∧
      served.2.Agrees map.2 := by
  intro served map
  obtain ⟨hanswers, hlast⟩ := (mirrors_empty capacity).serve requests
    ((Nat.zero_add _).symm ▸ hlap)
  have hkeys : CapAnswer.mintedIn map.1 =
      (List.range' 0 (CapAnswer.mintedIn map.1).length).map pointerAt :=
    FreshMap.mintedIn_serve { capacity } requests
  rw [← hanswers] at hkeys
  refine ⟨hanswers, ?_, ?_, hlast.agrees⟩
  · rw [hkeys]
    refine (List.nodup_range').map_on fun a ha b hb hptr => ?_
    have ha := (List.mem_range'_1.1 ha).2
    have hb := (List.mem_range'_1.1 hb).2
    rcases Nat.le_total a b with hab | hba
    · exact pointerAt_inj hptr hab (by omega)
    · exact (pointerAt_inj hptr.symm hba (by omega)).symm
  · rw [hkeys, List.mem_map]
    rintro ⟨n, -, hnull⟩
    have hptr := toNat_pointerAt n
    rw [hnull] at hptr
    cases hptr

/-- One slot: what is kept of the first capability does not reach the second one in its place. -/
theorem refines_fresh_map_one_slot :
    let first : Capability String := ⟨"first", 7, .read⟩
    let second : Capability String := ⟨"second", 8, .all⟩
    let served := (empty 1).serve [.mint first, .mint second, .lookupWith 1 .write, .revoke 1,
      .revoke 1, .mint second, .lookup 1, .lookup 0, .lookupWith 2 .write, .size]
    (CapAnswer.mintedIn served.1).length ≤ lap ∧ (CapAnswer.mintedIn served.1).Nodup ∧
      served.1 = [.minted 1, .refused (.outOfSlots 1), .refused (.insufficientRights 1),
        .revoked first, .refused (.invalidCapability 1), .minted 2, .found none, .found none,
        .granted "second", .counted 1] := by
  intro first second served
  have hanswers : served.1 = [.minted 1, .refused (.outOfSlots 1),
      .refused (.insufficientRights 1), .revoked first, .refused (.invalidCapability 1), .minted 2,
      .found none, .found none, .granted "second", .counted 1] := by decide
  have hlap : (CapAnswer.mintedIn served.1).length ≤ lap := by
    rw [hanswers]
    decide
  obtain ⟨-, hnodup, -⟩ := refines_fresh_map 1 _ hlap
  exact ⟨hlap, hnodup, hanswers⟩

end CapSpace

end Osal
