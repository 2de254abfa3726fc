import Osal.Clock.Schedule
import Osal.Proofs.CapSpace
import Osal.Proofs.Pool
import Mathlib.Data.List.Perm.Basic

/-!
# Pending timeouts and their wake capabilities

`Matched caps entries`: the space `caps` holds one capability for each of the timeouts `entries` and no
other, under the name of the timeout, with the badge of its requester and the right to signal. Minting
with a new entry and revoking with an old one keep this, and a lookup for an entry never fails.
-/

namespace Osal

/-- The space holds exactly the wake capabilities of these timeouts. -/
structure Matched (caps : CapSpace NotificationId) (entries : List TimeoutEntry) : Prop where
  sound : caps.Sound
  perm : (caps.held.map fun c => (c.1, c.2.badge, c.2.rights)).Perm
    (entries.map fun e => (e.id.cptr, e.requester, Rights.write))

namespace Matched

variable {caps caps' : CapSpace NotificationId} {entries entries' front back : List TimeoutEntry}
  {e : TimeoutEntry} {p : CapPtr}

theorem pointers_perm (h : Matched caps entries) :
    caps.pointers.Perm (entries.map (·.id.cptr)) := by
  have hperm := h.perm.map Prod.fst
  simp only [List.map_map, Function.comp_def] at hperm
  exact hperm

theorem nodup (h : Matched caps entries) : (entries.map (·.id.cptr)).Nodup :=
  h.pointers_perm.nodup_iff.1 h.sound.nodup

theorem ne_of_mem_rest (h : Matched caps (front ++ e :: back)) :
    ∀ e' ∈ front ++ back, e'.id.cptr ≠ e.id.cptr := by
  have hnodup := h.nodup
  rw [List.map_append, List.map_cons, List.nodup_middle, List.nodup_cons, ← List.map_append]
    at hnodup
  exact fun e' he' heq => hnodup.1 (List.mem_map.2 ⟨e', he', heq⟩)

theorem length_eq (h : Matched caps entries) : caps.held.length = entries.length := by
  simpa using h.perm.length_eq

theorem size_eq (h : Matched caps entries) : caps.size = entries.length :=
  h.sound.count_eq.trans h.length_eq

theorem mem_pointers_iff (h : Matched caps entries) :
    p ∈ caps.pointers ↔ ∃ e ∈ entries, e.id.cptr = p := by
  rw [h.pointers_perm.mem_iff, List.mem_map]

theorem congr (h : Matched caps entries)
    (heq : entries'.map (fun e => (e.id, e.requester)) = entries.map fun e => (e.id, e.requester)) :
    Matched caps entries' := by
  refine ⟨h.sound, ?_⟩
  have hkeys := congrArg (List.map fun k => (k.1.cptr, k.2, Rights.write)) heq
  simp only [List.map_map, Function.comp_def] at hkeys
  rw [hkeys]
  exact h.perm

theorem empty (capacity : Nat) : Matched (.empty capacity) [] := by
  refine ⟨CapSpace.sound_empty capacity, ?_⟩
  rw [CapSpace.held_empty]
  exact List.Perm.nil

/-! ### Looking a timeout up -/

theorem lookup_of_mem (h : Matched caps entries) (he : e ∈ entries) :
    ∃ cap, caps.lookup e.id.cptr = some cap ∧ cap.badge = e.requester ∧ cap.rights = .write := by
  have hkey : (e.id.cptr, e.requester, Rights.write) ∈
      caps.held.map fun c => (c.1, c.2.badge, c.2.rights) :=
    h.perm.mem_iff.2 (List.mem_map.2 ⟨e, he, rfl⟩)
  obtain ⟨⟨ptr, cap⟩, hmem, heq⟩ := List.mem_map.1 hkey
  simp only [Prod.mk.injEq] at heq
  obtain ⟨rfl, hbadge, hrights⟩ := heq
  exact ⟨cap, h.sound.lookup_eq_some_iff.2 hmem, hbadge, hrights⟩

theorem lookupWith_of_mem (h : Matched caps entries) (he : e ∈ entries) :
    ∃ cap, caps.lookup e.id.cptr = some cap ∧
      caps.lookupWith e.id.cptr .write = .ok cap.object := by
  obtain ⟨cap, hlookup, -, hrights⟩ := h.lookup_of_mem he
  have hcontains : Rights.contains .write .write = true := rfl
  refine ⟨cap, hlookup, ?_⟩
  simp [CapSpace.lookupWith, hlookup, hrights, hcontains]

/-! ### Minting and revoking -/

theorem mint (h : Matched caps entries) (wake : NotificationId)
    (hroom : entries.length < caps.capacity)
    (hfresh : ∀ e ∈ entries, e.id.cptr ≠ caps.next) (hname : e.id.cptr = caps.next) :
    ∃ caps', caps.mint wake e.requester .write = .ok (⟨caps.next, caps.next_ne_null⟩, caps') ∧
      Matched caps' (entries ++ [e]) ∧
      caps'.next = CapSpace.after caps.next ∧ caps'.capacity = caps.capacity ∧
      (caps'.lookup e.id.cptr).map (·.object) = some wake ∧
      ∀ q ≠ e.id.cptr, caps'.lookup q = caps.lookup q := by
  obtain ⟨caps', hmint, hnext, hcount, hcapacity, l, r, hold, hnew⟩ :=
    caps.mint_of_lt wake e.requester .write (h.length_eq ▸ hroom)
  have hnotin : caps.next ∉ caps.pointers := by
    rw [h.mem_pointers_iff]
    rintro ⟨e, he, heq⟩
    exact hfresh e he heq
  have hsound : caps'.Sound := h.sound.insert hnotin hold hnew hcount
  refine ⟨caps', hmint, ⟨hsound, ?_⟩, hnext, hcapacity, ?_, ?_⟩
  · have hperm := h.perm
    rw [hold, List.map_append] at hperm
    rw [hnew, List.map_append, List.map_cons, List.map_append, CapSpace.mintedEntry, ← hname]
    exact List.perm_middle.trans ((hperm.cons _).trans (List.perm_append_singleton _ _).symm)
  · have hmem : (e.id.cptr, ⟨wake, e.requester, .write⟩) ∈ caps'.held := by
      rw [hnew, hname]
      exact List.mem_append_right _ List.mem_cons_self
    rw [hsound.lookup_eq_some_iff.2 hmem]
    rfl
  · intro q hq
    rw [hname] at hq
    exact CapSpace.lookup_of_insert hold hnew hq

theorem revoke (h : Matched caps (front ++ e :: back)) :
    ∃ cap caps', caps.revoke e.id.cptr = .ok (cap, caps') ∧ Matched caps' (front ++ back) ∧
      caps'.next = caps.next ∧ caps'.capacity = caps.capacity ∧
      ∀ q ≠ e.id.cptr, caps'.lookup q = caps.lookup q := by
  have hmem : e.id.cptr ∈ caps.pointers := h.mem_pointers_iff.2 ⟨e, by simp, rfl⟩
  obtain ⟨cap, caps', hrevoke, hnext, hcount, hcapacity, l, r, hold, hnew⟩ :=
    CapSpace.revoke_of_mem hmem
  have hsound : caps'.Sound := h.sound.erase hold hnew hcount
  -- the capability that was taken out is the one of `e`, since no other has its pointer
  obtain ⟨cap', hlookup, hbadge, hrights⟩ := h.lookup_of_mem (e := e) (by simp)
  obtain rfl : cap = cap' := by
    have hheld : (e.id.cptr, cap) ∈ caps.held := hold ▸ List.mem_append_right _ List.mem_cons_self
    rw [h.sound.lookup_eq_some_iff.2 hheld] at hlookup
    exact Option.some.inj hlookup
  refine ⟨cap, caps', hrevoke, ⟨hsound, ?_⟩, hnext, hcapacity, ?_⟩
  · have hperm := h.perm
    rw [hold, List.map_append, List.map_cons, hbadge, hrights, List.map_append, List.map_cons]
      at hperm
    rw [hnew, List.map_append, List.map_append]
    exact (List.perm_middle.symm.trans (hperm.trans List.perm_middle)).cons_inv
  · intro q hq
    exact (CapSpace.lookup_of_insert hnew hold hq).symm

end Matched

end Osal
