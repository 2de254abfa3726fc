import Osal.Capability.Space
import Mathlib.Data.List.Nodup

/-!
# What a capability space holds

`CapSpace.held` is the view: minting puts one entry into it under the next pointer of the counter, and
revoking takes the entry of one pointer out. A space is `Sound` if it counts what it holds and holds no
pointer twice; then a pointer addresses the one entry it was minted with.
-/

namespace Osal

namespace CapSpace

variable {α β : Type} {s : CapSpace α} {p q : CapPtr}

/-! ### Slots -/

theorem putFirst_eq_none (entry : β) {slots : List (Option β)} :
    putFirst entry slots = none ↔ (slots.filterMap id).length = slots.length := by
  induction slots with
  | nil => simp [putFirst]
  | cons slot slots ih =>
    cases slot with
    | none =>
      have hle := List.length_filterMap_le id slots
      constructor
      · intro h
        cases h
      · intro h
        have : (slots.filterMap id).length = slots.length + 1 := h
        omega
    | some held =>
      have hcons : ((some held :: slots).filterMap id).length = (slots.filterMap id).length + 1 := rfl
      rw [putFirst, Option.map_eq_none_iff, ih, hcons, List.length_cons, Nat.add_right_cancel_iff]

theorem putFirst_eq_some {entry : β} {slots slots' : List (Option β)}
    (h : putFirst entry slots = some slots') :
    slots'.length = slots.length ∧ ∃ before after,
      slots.filterMap id = before ++ after ∧ slots'.filterMap id = before ++ entry :: after := by
  induction slots generalizing slots' with
  | nil => simp [putFirst] at h
  | cons slot slots ih =>
    cases slot with
    | none =>
      obtain rfl : some entry :: slots = slots' := by simpa [putFirst] using h
      exact ⟨rfl, [], slots.filterMap id, rfl, rfl⟩
    | some held =>
      obtain ⟨rest, hrest, rfl⟩ : ∃ rest, putFirst entry slots = some rest ∧
          some held :: rest = slots' := by simpa [putFirst] using h
      obtain ⟨hlen, before, after, hold, hnew⟩ := ih hrest
      exact ⟨by simp [hlen], held :: before, after, congrArg _ hold, congrArg _ hnew⟩

theorem takeFirst_eq_none {holds : β → Bool} {slots : List (Option β)} :
    takeFirst holds slots = none ↔ ∀ entry ∈ slots.filterMap id, holds entry = false := by
  induction slots with
  | nil => simp [takeFirst]
  | cons slot slots ih =>
    cases slot with
    | none => simp [takeFirst, ih]
    | some held =>
      cases hheld : holds held <;> simp [takeFirst, hheld, ih]

theorem takeFirst_eq_some {holds : β → Bool} {slots slots' : List (Option β)} {entry : β}
    (h : takeFirst holds slots = some (entry, slots')) :
    holds entry = true ∧ slots'.length = slots.length ∧ ∃ before after,
      slots.filterMap id = before ++ entry :: after ∧ slots'.filterMap id = before ++ after := by
  induction slots generalizing slots' with
  | nil => simp [takeFirst] at h
  | cons slot slots ih =>
    cases slot with
    | none =>
      obtain ⟨rest, hrest, rfl⟩ : ∃ rest, takeFirst holds slots = some (entry, rest) ∧
          none :: rest = slots' := by simpa [takeFirst] using h
      obtain ⟨hholds, hlen, before, after, hold, hnew⟩ := ih hrest
      exact ⟨hholds, by simp [hlen], before, after, hold, hnew⟩
    | some held =>
      cases hheld : holds held with
      | true =>
        obtain ⟨rfl, rfl⟩ : held = entry ∧ none :: slots = slots' := by
          simpa [takeFirst, hheld] using h
        exact ⟨hheld, rfl, [], slots.filterMap id, rfl, rfl⟩
      | false =>
        obtain ⟨rest, hrest, rfl⟩ : ∃ rest, takeFirst holds slots = some (entry, rest) ∧
            some held :: rest = slots' := by simpa [takeFirst, hheld] using h
        obtain ⟨hholds, hlen, before, after, hold, hnew⟩ := ih hrest
        exact ⟨hholds, by simp [hlen], held :: before, after, congrArg _ hold, congrArg _ hnew⟩

/-! ### Operations -/

def pointers (s : CapSpace α) : List CapPtr := s.held.map (·.1)

theorem toNat_after (h : p.toNat < 4294967295) : (after p).toNat = p.toNat + 1 := by
  have hsum : (p + 1).toNat = p.toNat + 1 := by
    rw [UInt32.toNat_add]
    exact Nat.mod_eq_of_lt (by show p.toNat + 1 < 4294967296; omega)
  rw [after, if_neg, hsum]
  intro hzero
  rw [hzero] at hsum
  cases hsum

theorem length_held_le (s : CapSpace α) : s.held.length ≤ s.capacity :=
  List.length_filterMap_le id s.slots

def mintedEntry (s : CapSpace α) (object : α) (badge : Badge) (rights : Rights) :
    CapPtr × Capability α :=
  (s.next, ⟨object, badge, rights⟩)

theorem mint_of_full (object : α) (badge : Badge) (rights : Rights)
    (h : s.held.length = s.capacity) :
    s.mint object badge rights = .error (.outOfSlots s.capacity) := by
  rw [mint, (putFirst_eq_none (s.next, ⟨object, badge, rights⟩)).2 h]

theorem mint_of_lt (object : α) (badge : Badge) (rights : Rights)
    (h : s.held.length < s.capacity) :
    ∃ s', s.mint object badge rights = .ok (⟨s.next, s.next_ne_null⟩, s') ∧
      s'.next = after s.next ∧ s'.count = s.count + 1 ∧ s'.capacity = s.capacity ∧
      ∃ front back, s.held = front ++ back ∧
        s'.held = front ++ s.mintedEntry object badge rights :: back := by
  cases hput : putFirst (s.mintedEntry object badge rights) s.slots with
  | none =>
    have : s.held.length = s.capacity := (putFirst_eq_none _).1 hput
    omega
  | some slots =>
    obtain ⟨hlen, hheld⟩ := putFirst_eq_some hput
    rw [mintedEntry] at hput
    exact ⟨{ slots, next := after s.next, count := s.count + 1, next_ne_null := after_ne_null s.next },
      by rw [mint, hput], rfl, rfl, hlen, hheld⟩

theorem revoke_of_notMem (h : p ∉ s.pointers) : s.revoke p = .error (.invalidCapability p) := by
  have hnone : takeFirst (fun entry => entry.1 == p) s.slots = none := by
    refine takeFirst_eq_none.2 fun entry hentry => ?_
    have : entry.1 ≠ p := fun heq => h (List.mem_map.2 ⟨entry, hentry, heq⟩)
    simpa using this
  rw [revoke, hnone]

theorem revoke_of_mem (h : p ∈ s.pointers) :
    ∃ cap s', s.revoke p = .ok (cap, s') ∧
      s'.next = s.next ∧ s'.count = s.count - 1 ∧ s'.capacity = s.capacity ∧
      ∃ front back, s.held = front ++ (p, cap) :: back ∧ s'.held = front ++ back := by
  cases htake : takeFirst (fun entry => entry.1 == p) s.slots with
  | none =>
    obtain ⟨entry, hentry, rfl⟩ := List.mem_map.1 h
    have := takeFirst_eq_none.1 htake entry hentry
    simp at this
  | some found =>
    obtain ⟨⟨ptr, cap⟩, slots⟩ := found
    obtain ⟨hptr, hlen, hheld⟩ := takeFirst_eq_some htake
    obtain rfl : ptr = p := by simpa using hptr
    exact ⟨cap, { s with slots, count := s.count - 1 }, by rw [revoke, htake], rfl, rfl, hlen, hheld⟩

/-! ### Sound spaces -/

/-- The space counts what it holds, and holds no pointer twice. -/
structure Sound (s : CapSpace α) : Prop where
  count_eq : s.count = s.held.length
  nodup : s.pointers.Nodup

@[simp] theorem held_empty (capacity : Nat) : (empty capacity : CapSpace α).held = [] := by
  rw [held, empty, List.filterMap_eq_nil_iff]
  intro slot hslot
  rw [List.eq_of_mem_replicate hslot]
  rfl

theorem sound_empty (capacity : Nat) : (empty capacity : CapSpace α).Sound := by
  constructor
  · rw [held_empty]
    rfl
  · rw [pointers, held_empty]
    exact List.nodup_nil

theorem lookup_eq_none_iff : s.lookup p = none ↔ p ∉ s.pointers := by
  simp only [lookup, Option.map_eq_none_iff, List.find?_eq_none, beq_iff_eq, pointers,
    List.mem_map, not_exists, not_and]

theorem Sound.lookup_eq_some_iff (h : s.Sound) {cap : Capability α} :
    s.lookup p = some cap ↔ (p, cap) ∈ s.held := by
  rw [lookup, Option.map_eq_some_iff]
  constructor
  · rintro ⟨entry, hfind, rfl⟩
    have hptr : entry.1 = p := by simpa using List.find?_some hfind
    exact hptr ▸ List.mem_of_find?_eq_some hfind
  · intro hmem
    obtain ⟨front, back, hsplit⟩ := List.append_of_mem hmem
    have hfront : ∀ entry ∈ front, entry.1 ≠ p := by
      intro entry hentry heq
      have hnodup := h.nodup
      rw [pointers, hsplit, List.map_append, List.nodup_append] at hnodup
      exact hnodup.2.2 entry.1 (List.mem_map_of_mem hentry) p (by simp) heq
    refine ⟨(p, cap), ?_, rfl⟩
    rw [hsplit, List.find?_append, List.find?_eq_none.2 fun e he => by simpa using hfront e he]
    simp

variable {s' : CapSpace α} {entry : CapPtr × Capability α} {front back : List (CapPtr × Capability α)}

theorem Sound.insert (h : s.Sound) (hfresh : entry.1 ∉ s.pointers) (hold : s.held = front ++ back)
    (hnew : s'.held = front ++ entry :: back) (hcount : s'.count = s.count + 1) : s'.Sound := by
  constructor
  · rw [hcount, h.count_eq, hold, hnew]
    simp only [List.length_append, List.length_cons]
    omega
  · have hnodup : (entry.1 :: s.pointers).Nodup := List.nodup_cons.2 ⟨hfresh, h.nodup⟩
    rw [pointers, hold, List.map_append] at hnodup
    rw [pointers, hnew, List.map_append, List.map_cons]
    exact List.nodup_middle.2 hnodup

theorem Sound.erase (h : s.Sound) (hold : s.held = front ++ entry :: back)
    (hnew : s'.held = front ++ back) (hcount : s'.count = s.count - 1) : s'.Sound := by
  constructor
  · rw [hcount, h.count_eq, hold, hnew]
    simp only [List.length_append, List.length_cons]
    omega
  · have hnodup := h.nodup
    rw [pointers, hold, List.map_append, List.map_cons, List.nodup_middle] at hnodup
    rw [pointers, hnew, List.map_append]
    exact (List.nodup_cons.1 hnodup).2

theorem lookup_of_insert (hold : s.held = front ++ back) (hnew : s'.held = front ++ entry :: back)
    (hne : q ≠ entry.1) : s'.lookup q = s.lookup q := by
  have : (entry.1 == q) = false := by simpa using hne.symm
  rw [lookup, lookup, hold, hnew, List.find?_append, List.find?_append, List.find?_cons, this]

end CapSpace

end Osal
