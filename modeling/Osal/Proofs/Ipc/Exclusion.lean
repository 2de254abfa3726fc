import Osal.Proofs.Ipc.Users
import Osal.Proofs.Mutex.Loans

/-!
# A shared buffer is exclusive

The availability semaphore of a buffer has one unit, and a thread has it from the moment its take succeeds
until its drop gives it back; only that thread comes to the lock of the bytes. A guard gives the unit back
before it unlocks, so that the next thread may have the unit and still find the bytes locked
(`Exclusive.window`). The bytes are a loan all the same: each step of the users is a step of borrowers of
the bytes, or none (`BufferUsers.Shadows`), and of those everything is known.

`buffer_exclusive`: at most one guard has the bytes, a new guard sees what the last one left, and when
nobody has the buffer it is available and unlocked.
-/

namespace Osal

/-! ## What a change does to the bytes -/

namespace BufferChange

def edit (before : List UInt8) : BufferChange → List UInt8
  | .write bytes =>
    if bytes.length ≤ before.length then bytes ++ before.drop bytes.length else before
  | .poke i byte => before.set i byte

theorem apply_cases (b : SharedBuffer) (change : BufferChange) :
    (∃ n, change.apply b = .ok (n, { b with data := b.data.write fun _ => change.edit b.bytes }) ∧
      change.Law b.bytes (.ok n) (change.edit b.bytes)) ∨
    (∃ stop, change.apply b = .error stop ∧ change.Law b.bytes (.error stop) b.bytes ∧
      change.edit b.bytes = b.bytes) := by
  cases change with
  | write bytes =>
    by_cases hfits : bytes.length ≤ b.bytes.length
    · refine .inl ⟨bytes.length, ?_, ?_⟩
      · simp only [apply, SharedBuffer.write, if_pos hfits, edit]
        rfl
      · rw [Law, if_pos hfits, edit, if_pos hfits]
        simp
    · refine .inr ⟨.refused (.bufferTooSmall bytes.length b.bytes.length), ?_, ?_, ?_⟩
      · simp only [apply, SharedBuffer.write, if_neg hfits]
      · rw [Law, if_neg hfits]
        exact ⟨rfl, rfl⟩
      · rw [edit, if_neg hfits]
  | poke i byte =>
    by_cases hlt : i < b.bytes.length
    · refine .inl ⟨1, ?_, ?_⟩
      · simp only [apply, SharedBuffer.poke, if_pos hlt]
        rfl
      · rw [Law, if_pos hlt]
        exact ⟨rfl, rfl⟩
    · refine .inr ⟨.broken .indexOutOfBounds, ?_, ?_, ?_⟩
      · simp only [apply, SharedBuffer.poke, if_neg hlt]
      · rw [Law, if_neg hlt]
        exact ⟨rfl, rfl⟩
      · exact List.set_eq_of_length_le (Nat.le_of_not_lt hlt)

theorem Law.length {before after : List UInt8} {change : BufferChange} {answer : Except Stop Nat}
    (h : change.Law before answer after) : after.length = before.length := by
  cases change with
  | write bytes =>
    rw [Law] at h
    split at h
    · obtain ⟨-, htake, hdrop⟩ := h
      have htaken := congrArg List.length htake
      have hdropped := congrArg List.length hdrop
      rw [List.length_take] at htaken
      rw [List.length_drop, List.length_drop] at hdropped
      omega
    · rw [h.2]
  | poke i byte =>
    rw [Law] at h
    split at h
    · rw [h.2, List.length_set]
    · rw [h.2]

end BufferChange

/-! ## Where a thread stands -/

namespace Guarded

/-- Whether a point is one of a thread that has no guard and tries to get one. -/
def Point.IsLocking : Point → Prop
  | .locking _ | .borrow => True
  | .unwinding _ | .endLoan | .unlocking _ => False

/-- Whether a point is one of a thread that drops its guard. -/
def Point.IsReleasing : Point → Prop
  | .endLoan | .unlocking _ => True
  | .locking _ | .borrow | .unwinding _ => False

end Guarded

namespace BufferCall

def lockPoint? : BufferCall → Option Guarded.Point
  | .acquiring _ (.locking p) | .dropping (.unlocking p) => some p
  | .acquiring _ (.taking _) | .acquiring _ .givingBack | .changing .. | .dropping .giving => none

def keeps (had : Bool) : BufferCall → Bool
  | .acquiring _ (.taking _) | .changing .. => had
  | .acquiring _ (.locking _) | .acquiring _ .givingBack | .dropping .giving => true
  | .dropping (.unlocking _) => false

/-- What a thread that has a guard, or none, does inside of a call. -/
def Fits (had : Bool) : BufferCall → Prop
  | .acquiring _ (.taking _) => True
  | .acquiring _ (.locking p) => had = false ∧ p.IsLocking
  | .acquiring _ .givingBack => False
  | .changing .. | .dropping .giving => had = true
  | .dropping (.unlocking p) => p.IsReleasing

end BufferCall

/-! ## Deeds that are about no bytes -/

namespace BufferDeed

/-- Whether a deed is about no bytes. -/
def isAside : BufferDeed → Bool
  | .dropped .. | .refused .. => true
  | .opened .. | .changed .. | .closed .. => false

variable {deed : BufferDeed} {past : List BufferDeed} {initial : List UInt8}

theorem opener_cons_of_aside (h : deed.isAside = true) : opener (deed :: past) = opener past := by
  cases deed <;> first | rfl | cases h

theorem left_cons_of_aside (h : deed.isAside = true) :
    left initial (deed :: past) = left initial past := by
  cases deed <;> first | rfl | cases h

theorem content_cons_of_aside (h : deed.isAside = true) :
    content initial (deed :: past) = content initial past := by
  cases deed <;> first | rfl | cases h

end BufferDeed

namespace BufferUsers

variable {c : BufferUsers} {initial : List UInt8} {t u : Tid} {call : Option BufferCall}
  {had : Bool} {next : SharedBuffer × Wakes} {news : List BufferDeed}
  {s s' : Borrowers (List UInt8)} {holder : Option Tid}

/-! ### One unit -/

def keeps (c : BufferUsers) (t : Tid) : Bool :=
  match c.calls t with
  | none => c.guards t
  | some call => call.keeps (c.guards t)

/-- The semaphore is available, or one thread has its unit. -/
def OneUnit (c : BufferUsers) : Prop :=
  ∃ keeper : Option Tid, c.buffer.avail.available = keeper.isNone ∧
    ∀ t, c.keeps t = true ↔ keeper = some t

@[simp] theorem keeps_move_of_ne (hu : u ≠ t) : (c.move t call had next news).keeps u = c.keeps u := by
  simp only [keeps, move, Function.update_of_ne hu]

@[simp] theorem keeps_move_self : (c.move t call had next news).keeps t =
    match call with
    | none => had
    | some call => call.keeps had := by
  simp only [keeps, move, Function.update_self]

/-- What a thread has to show of the unit when it moves: that it has it as before, that it took it, or that
it put it back. -/
theorem OneUnit.move (h : c.OneUnit)
    (hunit : (next.1.avail.available = c.buffer.avail.available ∧
        (c.move t call had next news).keeps t = c.keeps t) ∨
      (c.buffer.avail.available = true ∧ next.1.avail.available = false ∧
        (c.move t call had next news).keeps t = true) ∨
      (c.keeps t = true ∧ next.1.avail.available = true ∧
        (c.move t call had next news).keeps t = false)) :
    (c.move t call had next news).OneUnit := by
  obtain ⟨keeper, havailable, hkeeps⟩ := h
  have hothers : ∀ u ≠ t, (c.move t call had next news).keeps u = true ↔ keeper = some u :=
    fun u hu => by simp [hu, hkeeps]
  rcases hunit with ⟨hsame, hself⟩ | ⟨hfree, htaken, hself⟩ | ⟨hkept, hgiven, hself⟩
  · refine ⟨keeper, hsame.trans havailable, fun u => ?_⟩
    by_cases hu : u = t
    · rw [hu, hself, hkeeps]
    · exact hothers u hu
  · rw [hfree] at havailable
    obtain rfl := Option.isNone_iff_eq_none.1 havailable.symm
    refine ⟨some t, htaken, fun u => ?_⟩
    by_cases hu : u = t
    · simp [hu, hself]
    · rw [hothers u hu]
      simp [Ne.symm hu]
  · obtain rfl := (hkeeps t).1 hkept
    refine ⟨none, hgiven, fun u => ?_⟩
    by_cases hu : u = t
    · simp [hu, hself]
    · rw [hothers u hu]
      simp [Ne.symm hu]

theorem OneUnit.unique (h : c.OneUnit) (ht : c.keeps t = true) (hu : c.keeps u = true) : t = u := by
  obtain ⟨keeper, -, hkeeps⟩ := h
  exact Option.some.inj (((hkeeps t).1 ht).symm.trans ((hkeeps u).1 hu))

theorem OneUnit.available_iff (h : c.OneUnit) :
    c.buffer.avail.available = true ↔ ∀ t, c.keeps t = false := by
  obtain ⟨keeper, havailable, hkeeps⟩ := h
  rw [havailable, Option.isNone_iff_eq_none]
  constructor
  · rintro rfl t
    rw [← Bool.not_eq_true, hkeeps]
    nofun
  · intro hnone
    cases keeper with
    | none => rfl
    | some t => exact absurd ((hkeeps t).2 rfl) (by rw [hnone]; decide)

/-! ### The borrowers of the bytes -/

def lockPoint? (c : BufferUsers) (t : Tid) : Option Guarded.Point :=
  (c.calls t).bind BufferCall.lockPoint?

/-- The users of the buffer are these borrowers of its bytes. -/
structure Shadows (c : BufferUsers) (s : Borrowers (List UInt8)) : Prop where
  data : s.guarded = c.buffer.data
  guards : s.guards = c.guards
  point : s.point? = c.lockPoint?
  copy : ∀ {t change copy}, c.calls t = some (.changing change copy) → s.copies t = some copy

@[simp] theorem lockPoint?_move : (c.move t call had next news).lockPoint? =
    Function.update c.lockPoint? t (call.bind BufferCall.lockPoint?) := by
  funext u
  simp only [lockPoint?, move]
  by_cases hu : u = t
  · rw [hu, Function.update_self, Function.update_self]
  · rw [Function.update_of_ne hu, Function.update_of_ne hu]
    rfl

/-- What the borrowers have to show when a thread moves. -/
theorem Shadows.move (h : c.Shadows s) (hdata : s'.guarded = next.1.data)
    (hguards : s'.guards = Function.update s.guards t had)
    (hpoint : s'.point? = Function.update s.point? t (call.bind BufferCall.lockPoint?))
    (hself : ∀ change copy, call = some (.changing change copy) → s'.copies t = some copy)
    (hothers : ∀ u ≠ t, s'.copies u = s.copies u) : (c.move t call had next news).Shadows s' := by
  refine ⟨hdata, hguards.trans (by rw [h.guards]; rfl), ?_, fun {u change copy} hu => ?_⟩
  · rw [hpoint, h.point, lockPoint?_move]
  · simp only [BufferUsers.move] at hu
    by_cases hut : u = t
    · subst hut
      rw [Function.update_self] at hu
      exact hself change copy hu
    · rw [Function.update_of_ne hut] at hu
      rw [hothers u hut]
      exact h.copy hu

theorem Shadows.rest (h : c.Shadows s) (hdata : next.1.data = c.buffer.data)
    (hpoint : call.bind BufferCall.lockPoint? = c.lockPoint? t)
    (hself : ∀ change copy, call = some (.changing change copy) → s.copies t = some copy) :
    (c.move t call (c.guards t) next news).Shadows s := by
  refine h.move (h.data.trans hdata.symm) ?_ ?_ hself fun _ _ => rfl
  · rw [← h.guards, Function.update_eq_self]
  · rw [hpoint, ← h.point, Function.update_eq_self]

theorem Shadows.call_eq_none (h : c.Shadows s) (hpoint : c.lockPoint? t = none) :
    s.calls t = none := by
  have hnone : s.point? t = none := h.point ▸ hpoint
  exact Option.map_eq_none_iff.1 hnone

theorem Shadows.exists_call (h : c.Shadows s) {p : Guarded.Point} (hpoint : c.lockPoint? t = some p) :
    ∃ before, s.calls t = some (p, before) := by
  have hsome : s.point? t = some p := h.point ▸ hpoint
  obtain ⟨⟨_, before⟩, hcall, rfl⟩ := Option.map_eq_some_iff.1 hsome
  exact ⟨before, hcall⟩

theorem Shadows.lock (h : c.Shadows s) (hpoint : c.lockPoint? t = none)
    (hcall : call.bind BufferCall.lockPoint? = some (.locking .lockCheck))
    (hdata : next.1.data = c.buffer.data) :
    (c.move t call (c.guards t) next news).Shadows (s.handle (.lock t)) := by
  have hlock : s.handle (.lock t) =
      { s with calls := Function.update s.calls t (some (.locking .lockCheck, s.guarded)) } := by
    simp only [Borrowers.handle, h.call_eq_none hpoint]
  rw [hlock]
  refine h.move (h.data.trans hdata.symm) ?_ ?_ (fun change copy heq => ?_) fun _ _ => rfl
  · rw [← h.guards, Function.update_eq_self]
  · rw [hcall]
    exact Borrowers.Kept.point?_enter s t _ s.copies
  · rw [heq] at hcall
    cases hcall

theorem Shadows.drop (h : c.Shadows s) (hpoint : c.lockPoint? t = none) (hguard : c.guards t = true)
    (hcall : call.bind BufferCall.lockPoint? = some .endLoan)
    (hdata : next.1.data = c.buffer.data) :
    (c.move t call (c.guards t) next news).Shadows (s.handle (.drop t)) := by
  have hdrop : s.handle (.drop t) =
      { s with
        calls := Function.update s.calls t (some (.endLoan, s.guarded))
        copies := Function.update s.copies t none } := by
    simp only [Borrowers.handle, Borrowers.beginDrop, h.call_eq_none hpoint, h.guards, hguard]
  rw [hdrop]
  refine h.move (h.data.trans hdata.symm) ?_ ?_ (fun change copy heq => ?_) fun u hu => ?_
  · rw [← h.guards, Function.update_eq_self]
  · rw [hcall]
    exact Borrowers.Kept.point?_enter s t _ (Function.update s.copies t none)
  · rw [heq] at hcall
    cases hcall
  · exact Function.update_of_ne hu ..

theorem Shadows.step (h : c.Shadows s) {p : Guarded.Point} (hpoint : c.lockPoint? t = some p)
    {turn : Next Guarded.Point Guarded.Outcome}
    (hstep : Guarded.step t c.buffer.data p = some (next.1.data, turn))
    (hcall : call.bind BufferCall.lockPoint? = Guarded.place turn)
    (hchanging : ∀ change copy, call ≠ some (.changing change copy))
    (hhad : had = Borrowers.guardAfter (c.guards t) p turn) :
    (c.move t call had next news).Shadows (s.handle (.step t)) := by
  obtain ⟨before, hbefore⟩ := h.exists_call hpoint
  have hadvance : s.handle (.step t) = s.advance t p before (next.1.data, turn) := by
    simp only [Borrowers.handle, hbefore, h.data, hstep]
  rw [hadvance]
  refine h.move rfl ?_ ?_ (fun change copy heq => absurd heq (hchanging change copy)) fun _ _ => rfl
  · rw [hhad, ← h.guards]
    rfl
  · rw [hcall]
    exact Borrowers.Kept.point?_advance s t p before next.1.data turn

theorem Shadows.load (h : c.Shadows s) (hcall : c.calls t = none) (hguard : c.guards t = true)
    (change : BufferChange) :
    (c.move t (some (.changing change c.buffer.bytes)) true (c.buffer, c.wakes) []).Shadows
      (s.handle (.load t)) := by
  have hpoint : c.lockPoint? t = none := by rw [lockPoint?, hcall]; rfl
  have hload : s.handle (.load t) =
      { s with copies := Function.update s.copies t (some s.guarded.value) } := by
    simp only [Borrowers.handle, h.call_eq_none hpoint, h.guards, hguard]
  rw [hload]
  refine h.move h.data ?_ ?_ (fun change copy heq => ?_) fun u hu => Function.update_of_ne hu ..
  · rw [← hguard, ← h.guards, Function.update_eq_self]
  · show s.point? = Function.update s.point? t none
    rw [← hpoint, ← h.point, Function.update_eq_self]
  · obtain ⟨rfl, rfl⟩ := BufferCall.changing.inj (Option.some.inj heq)
    simp only [Function.update_self, h.data]
    rfl

theorem store_eq (c : BufferUsers) (t : Tid) (change : BufferChange) :
    ∃ answer, change.Law c.buffer.bytes answer (change.edit c.buffer.bytes) ∧
      c.store t change c.buffer.bytes = c.move t none (c.guards t)
        ({ c.buffer with data := c.buffer.data.write fun _ => change.edit c.buffer.bytes }, c.wakes)
        [.changed t change answer (change.edit c.buffer.bytes)] := by
  have hsame : { c.buffer with data := c.buffer.data.write fun _ => c.buffer.bytes } = c.buffer := rfl
  rw [store, hsame]
  rcases change.apply_cases c.buffer with ⟨n, happly, hlaw⟩ | ⟨stop, happly, hlaw, hedit⟩
  · refine ⟨.ok n, hlaw, ?_⟩
    rw [happly]
    rfl
  · refine ⟨.error stop, hedit.symm ▸ hlaw, ?_⟩
    rw [happly, hedit]
    rfl

theorem Shadows.store (h : c.Shadows s) {change : BufferChange}
    (hcall : c.calls t = some (.changing change c.buffer.bytes)) (answer : Except Stop Nat) :
    (c.move t none (c.guards t)
      ({ c.buffer with data := c.buffer.data.write fun _ => change.edit c.buffer.bytes }, c.wakes)
      [.changed t change answer (change.edit c.buffer.bytes)]).Shadows
      (s.handle (.store t fun bytes => change.edit bytes)) := by
  have hpoint : c.lockPoint? t = none := by rw [lockPoint?, hcall]; rfl
  have hstore : s.handle (.store t fun bytes => change.edit bytes) =
      { s with
        guarded := s.guarded.write fun _ => change.edit c.buffer.bytes
        copies := Function.update s.copies t none
        history := .wrote t (fun bytes => change.edit bytes) :: s.history } := by
    simp only [Borrowers.handle, h.call_eq_none hpoint, h.copy hcall]
  rw [hstore]
  refine h.move (by rw [h.data]) ?_ ?_ (fun _ _ heq => by cases heq) fun u hu =>
    Function.update_of_ne hu ..
  · rw [← h.guards, Function.update_eq_self]
  · show s.point? = Function.update s.point? t none
    rw [← hpoint, ← h.point, Function.update_eq_self]

/-! ### What is told -/

/-- The history tells who has a guard and what the bytes are. -/
structure Told (initial : List UInt8) (c : BufferUsers) : Prop where
  opener : ∀ t, BufferDeed.opener c.history = some t ↔ c.guards t = true
  content : c.buffer.bytes = BufferDeed.content initial c.history
  length : c.buffer.bytes.length = initial.length
  left : BufferDeed.opener c.history = none →
    BufferDeed.content initial c.history = BufferDeed.left initial c.history
  lawful : Lawful (BufferDeed.Law initial) c.history

namespace Told

theorem quiet (h : c.Told initial) (hbytes : next.1.bytes = c.buffer.bytes) :
    (c.move t call (c.guards t) next []).Told initial := by
  refine ⟨fun u => ?_, hbytes.trans h.content, (congrArg _ hbytes).trans h.length, h.left, h.lawful⟩
  simp only [move, Function.update_eq_self]
  exact h.opener u

theorem aside (h : c.Told initial) (hbytes : next.1.bytes = c.buffer.bytes) {deed : BufferDeed}
    (haside : deed.isAside = true) (hlaw : deed.Law initial c.history) :
    (c.move t call (c.guards t) next [deed]).Told initial := by
  refine ⟨fun u => ?_, ?_, (congrArg _ hbytes).trans h.length, fun hnone => ?_,
    lawful_cons.2 ⟨hlaw, h.lawful⟩⟩
  · simp only [move, Function.update_eq_self]
    exact (BufferDeed.opener_cons_of_aside haside).symm ▸ h.opener u
  · exact hbytes.trans (h.content.trans (BufferDeed.content_cons_of_aside haside).symm)
  · refine (BufferDeed.content_cons_of_aside haside).trans ((h.left ?_).trans
      (BufferDeed.left_cons_of_aside haside).symm)
    exact (BufferDeed.opener_cons_of_aside haside).symm.trans hnone

theorem opener_eq_none (h : c.Told initial) (hnone : ∀ u, c.guards u = false) :
    BufferDeed.opener c.history = none := by
  cases hopener : BufferDeed.opener c.history with
  | none => rfl
  | some u => exact absurd ((h.opener u).1 hopener) (by rw [hnone]; decide)

theorem lend (h : c.Told initial) (hbytes : next.1.bytes = c.buffer.bytes)
    (hnone : ∀ u, c.guards u = false) :
    (c.move t call true next [.opened t next.1.bytes]).Told initial := by
  have hopener := h.opener_eq_none hnone
  refine ⟨fun u => ?_, rfl, (congrArg _ hbytes).trans h.length, nofun,
    lawful_cons.2 ⟨⟨hopener, ?_⟩, h.lawful⟩⟩
  · simp only [move]
    by_cases hu : u = t
    · simp [hu, BufferDeed.opener]
    · rw [Function.update_of_ne hu, hnone]
      simp [BufferDeed.opener, Ne.symm hu]
  · rw [hbytes, h.content, h.left hopener]
    rfl

theorem change (h : c.Told initial) (hguard : c.guards t = true) {change : BufferChange}
    {answer : Except Stop Nat} (hlaw : change.Law c.buffer.bytes answer next.1.bytes) :
    (c.move t call (c.guards t) next [.changed t change answer next.1.bytes]).Told initial := by
  have hopener := (h.opener t).2 hguard
  refine ⟨fun u => ?_, rfl, hlaw.length.trans h.length, fun hnone => ?_,
    lawful_cons.2 ⟨⟨hopener, h.content ▸ hlaw⟩, h.lawful⟩⟩
  · simp only [move, Function.update_eq_self]
    exact h.opener u
  · exact absurd (hopener.symm.trans hnone) nofun

theorem close (h : c.Told initial) (hbytes : next.1.bytes = c.buffer.bytes)
    (hguard : c.guards t = true) (hunique : ∀ u, c.guards u = true → u = t) :
    (c.move t call false next [.closed t c.buffer.bytes]).Told initial := by
  have hopener := (h.opener t).2 hguard
  refine ⟨fun u => ?_, hbytes, (congrArg _ hbytes).trans h.length, fun _ => rfl,
    lawful_cons.2 ⟨⟨hopener, h.content⟩, h.lawful⟩⟩
  simp only [move]
  by_cases hu : u = t
  · simp [hu, BufferDeed.opener]
  · rw [Function.update_of_ne hu]
    exact ⟨nofun, fun hguard => absurd (hunique u hguard) hu⟩

end Told

/-! ## The invariant -/

/-- The semaphore has one unit, the bytes are lent as they are to borrowers, and the history tells of both
what it should. -/
structure Kept (initial : List UInt8) (c : BufferUsers) (s : Borrowers (List UInt8))
    (holder : Option Tid) : Prop where
  lent : s.Kept initial holder
  shadows : c.Shadows s
  unit : c.OneUnit
  fits : ∀ t call, c.calls t = some call → call.Fits (c.guards t)
  told : c.Told initial

theorem retire_endLoan (c : BufferUsers) (t : Tid) (q : SharedBuffer.DropPoint)
    (next : SharedBuffer × Wakes) :
    c.retire t (.unlocking .endLoan) (next, .goto q) =
      c.move t (some (.dropping q)) false next [.closed t c.buffer.bytes] := by
  simp [retire, SharedBuffer.DropPoint.endsLoan]

theorem retire_of_not_endsLoan {p : SharedBuffer.DropPoint} (hp : p.endsLoan = false)
    (c : BufferUsers) (t : Tid) (next : SharedBuffer × Wakes)
    (turn : Next SharedBuffer.DropPoint Unit) :
    c.retire t p (next, turn) = match turn with
      | .goto q => c.move t (some (.dropping q)) (c.guards t) next []
      | .done () => c.move t none (c.guards t) next [.dropped t next.1] := by
  cases turn <;> simp [retire, hp]

namespace Kept

theorem fits_move (h : c.Kept initial s holder) (hcall : ∀ call', call = some call' → call'.Fits had) :
    ∀ u call', (c.move t call had next news).calls u = some call' →
      call'.Fits ((c.move t call had next news).guards u) := by
  intro u call' hu
  simp only [move] at hu ⊢
  by_cases hut : u = t
  · subst hut
    rw [Function.update_self] at hu ⊢
    exact hcall call' hu
  · rw [Function.update_of_ne hut] at hu ⊢
    exact h.fits u call' hu

theorem rest (h : c.Kept initial s holder) (hdata : next.1.data = c.buffer.data)
    (havailable : next.1.avail.available = c.buffer.avail.available)
    (hpoint : call.bind BufferCall.lockPoint? = c.lockPoint? t)
    (hkeeps : (c.move t call (c.guards t) next news).keeps t = c.keeps t)
    (hchanging : ∀ change copy, call ≠ some (.changing change copy))
    (hfits : ∀ call', call = some call' → call'.Fits (c.guards t))
    (htold : (c.move t call (c.guards t) next news).Told initial) :
    (c.move t call (c.guards t) next news).Kept initial s holder where
  lent := h.lent
  shadows := h.shadows.rest hdata hpoint fun change copy heq => absurd heq (hchanging change copy)
  unit := h.unit.move (.inl ⟨havailable, hkeeps⟩)
  fits := h.fits_move hfits
  told := htold

/-- The unit is with nobody when a thread wins it, so that the thread has no guard. -/
theorem guard_of_available (h : c.Kept initial s holder) {ms : Int32} {p : Take.Point}
    (havailable : c.buffer.avail.available = true)
    (hcall : c.calls t = some (.acquiring ms (.taking p))) : c.guards t = false := by
  have hkeeps := h.unit.available_iff.1 havailable t
  rwa [keeps, hcall] at hkeeps

theorem acquire (h : c.Kept initial s holder) (hcall : c.calls t = none) (ms : Int32) :
    (c.move t (some (.acquiring ms (.taking .entering))) (c.guards t) (c.buffer, c.wakes) []).Kept
      initial s holder := by
  refine h.rest rfl rfl ?_ ?_ nofun (fun call' heq => ?_) (h.told.quiet rfl)
  · rw [lockPoint?, hcall]
    rfl
  · rw [keeps_move_self, keeps, hcall]
    rfl
  · obtain rfl := Option.some.inj heq
    trivial

theorem change (h : c.Kept initial s holder) (hcall : c.calls t = none) (hguard : c.guards t = true)
    (change : BufferChange) :
    ∃ s' holder', (c.move t (some (.changing change c.buffer.bytes)) true (c.buffer, c.wakes)
      []).Kept initial s' holder' := by
  have hsame : ∀ call', c.move t call' true (c.buffer, c.wakes) [] =
      c.move t call' (c.guards t) (c.buffer, c.wakes) [] := fun _ => by rw [hguard]
  refine ⟨_, holder, h.lent.load t, h.shadows.load hcall hguard change, h.unit.move (.inl ⟨rfl, ?_⟩),
    h.fits_move fun call' heq => ?_, ?_⟩
  · rw [keeps_move_self, keeps, hcall, hguard]
    rfl
  · obtain rfl := Option.some.inj heq
    rfl
  · rw [hsame]
    exact h.told.quiet rfl

theorem drop (h : c.Kept initial s holder) (hcall : c.calls t = none) (hguard : c.guards t = true) :
    (c.move t (some (.dropping .giving)) true (c.buffer, c.wakes) []).Kept initial s holder := by
  rw [← hguard]
  refine h.rest rfl rfl ?_ ?_ nofun (fun call' heq => ?_) (h.told.quiet rfl)
  · rw [lockPoint?, hcall]
    rfl
  · rw [keeps_move_self, keeps, hcall, hguard]
    rfl
  · obtain rfl := Option.some.inj heq
    exact hguard

/-! ### An acquisition -/

theorem take (h : c.Kept initial s holder) {ms : Int32} {p : Take.Point}
    (hcall : c.calls t = some (.acquiring ms (.taking p))) {avail : Semaphore} (wakes : Wakes)
    {turn : Take.Turn} (hturns : Take.Turns c.buffer.avail.available avail.available turn) :
    ∃ s' holder', (c.advance t ms (({ c.buffer with avail }, wakes),
      SharedBuffer.ofTurn turn)).Kept initial s' holder' := by
  have hpoint : c.lockPoint? t = none := by rw [lockPoint?, hcall]; rfl
  have hkeeps : c.keeps t = c.guards t := by rw [keeps, hcall]; rfl
  generalize hbefore : c.buffer.avail.available = before, hafter : avail.available = after at hturns
  cases hturns with
  | goes unit q =>
    refine ⟨s, holder, h.rest rfl (hafter.trans hbefore.symm) ?_ ?_ nofun (fun call' heq => ?_)
      (h.told.quiet rfl)⟩
    · rw [hpoint]
      rfl
    · rw [keeps_move_self, hkeeps]
      rfl
    · obtain rfl := Option.some.inj heq
      trivial
  | wins =>
    have hguard := h.guard_of_available hbefore hcall
    refine ⟨_, holder, h.lent.lock t, h.shadows.lock hpoint rfl rfl,
      h.unit.move (.inr (.inl ⟨hbefore, hafter, ?_⟩)), h.fits_move fun call' heq => ?_, h.told.quiet rfl⟩
    · rw [keeps_move_self]
      rfl
    · obtain rfl := Option.some.inj heq
      exact ⟨hguard, trivial⟩
  | stops unit hstop =>
    refine ⟨s, holder, h.rest rfl (hafter.trans hbefore.symm) ?_ ?_ nofun nofun
      (h.told.aside rfl rfl hstop)⟩
    · rw [hpoint]
      rfl
    · rw [keeps_move_self, hkeeps]

theorem lock_cases (h : c.Kept initial s holder) {ms : Int32} {p : Guarded.Point}
    (hcall : c.calls t = some (.acquiring ms (.locking p))) {data : Guarded (List UInt8)}
    {turn : Next Guarded.Point Guarded.Outcome}
    (hstep : Guarded.Steps t c.buffer.data p data turn) :
    (∃ q, turn = .goto q ∧ q.IsLocking) ∨
      (turn = .done .guarded ∧ c.buffer.data.lent = false) := by
  obtain ⟨hguard, hlocking⟩ := h.fits t _ hcall
  have hpoint : s.point? t = some p := by rw [h.shadows.point, lockPoint?, hcall]; rfl
  have hfits := h.lent.fits t p hpoint
  cases hstep with
  | lock => exact .inl ⟨_, rfl, trivial⟩
  | locked => exact .inl ⟨_, rfl, trivial⟩
  | lend hlent => exact .inr ⟨rfl, hlent⟩
  | overflow hmutex ho =>
    rcases hmutex.outcome_of_lock hfits with ⟨rfl, rfl, hfull⟩ | ⟨-, -, rfl, -⟩
    · have hroom := h.lent.no_overflow hpoint
      rw [h.shadows.data] at hroom
      exact absurd hroom (Nat.not_lt.2 hfull)
    · exact absurd rfl ho
  | refuse hlent =>
    have hhad := (h.lent.lent_iff_guard hpoint).1 (h.shadows.data.symm ▸ hlent)
    rw [h.shadows.guards, hguard] at hhad
    cases hhad
  | unwind | unwound | endLoan | unlock | unlocked => exact hlocking.elim

theorem lock (h : c.Kept initial s holder) {ms : Int32} {p : Guarded.Point}
    (hcall : c.calls t = some (.acquiring ms (.locking p))) {data : Guarded (List UInt8)}
    {turn : Next Guarded.Point Guarded.Outcome}
    (hstep : Guarded.step t c.buffer.data p = some (data, turn)) :
    ∃ s' holder', (c.advance t ms (({ c.buffer with data }, c.wakes),
      SharedBuffer.ofLock turn)).Kept initial s' holder' := by
  have hsteps := Guarded.steps_of_step hstep
  have hpoint : c.lockPoint? t = some p := by rw [lockPoint?, hcall]; rfl
  have hkeeps : c.keeps t = true := by rw [keeps, hcall]; rfl
  obtain ⟨hguard, hlocking⟩ := h.fits t _ hcall
  obtain ⟨holder', hlent⟩ := h.lent.handle (.step t)
  rcases h.lock_cases hcall hsteps with ⟨q, rfl, hq⟩ | ⟨rfl, hfree⟩
  · refine ⟨_, holder', hlent, h.shadows.step hpoint hstep rfl nofun ?_,
      h.unit.move (.inl ⟨rfl, ?_⟩), h.fits_move fun call' heq => ?_, h.told.quiet hsteps.value_eq⟩
    · cases p with
      | locking | borrow => rfl
      | unwinding | endLoan | unlocking => exact hlocking.elim
    · rw [keeps_move_self, hkeeps]
      rfl
    · obtain rfl := Option.some.inj heq
      exact ⟨hguard, hq⟩
  · have hnone : ∀ u, c.guards u = false := by
      intro u
      by_contra hu
      have hlentTo := h.lent.lent_iff.2 ⟨u, by rw [h.shadows.guards]; simpa using hu⟩
      rw [h.shadows.data, hfree] at hlentTo
      cases hlentTo
    refine ⟨_, holder', hlent, h.shadows.step hpoint hstep rfl nofun ?_,
      h.unit.move (.inl ⟨rfl, ?_⟩), h.fits_move nofun, h.told.lend hsteps.value_eq hnone⟩
    · cases p with
      | locking | borrow => rfl
      | unwinding | endLoan | unlocking => exact hlocking.elim
    · rw [keeps_move_self, hkeeps]

/-! ### A change -/

theorem store (h : c.Kept initial s holder) {change : BufferChange} {copy : List UInt8}
    (hcall : c.calls t = some (.changing change copy)) :
    ∃ s' holder', (c.store t change copy).Kept initial s' holder' := by
  obtain ⟨-, hvalue, -⟩ := h.lent.copy t copy (h.shadows.copy hcall)
  obtain rfl : copy = c.buffer.bytes := hvalue.trans (congrArg Guarded.value h.shadows.data)
  have hguard : c.guards t = true := h.fits t _ hcall
  obtain ⟨answer, hlaw, hstore⟩ := c.store_eq t change
  rw [hstore]
  refine ⟨_, holder, h.lent.store t _, h.shadows.store hcall answer, h.unit.move (.inl ⟨rfl, ?_⟩),
    h.fits_move nofun, h.told.change hguard hlaw⟩
  rw [keeps_move_self, keeps, hcall]
  rfl

/-! ### A drop -/

theorem give (h : c.Kept initial s holder) (hcall : c.calls t = some (.dropping .giving))
    {avail : Semaphore} {wakes : Wakes} (hgive : c.buffer.avail.give c.wakes = some (avail, wakes)) :
    ∃ s' holder', (c.retire t .giving (({ c.buffer with avail }, wakes),
      .goto (.unlocking .endLoan))).Kept initial s' holder' := by
  have hpoint : c.lockPoint? t = none := by rw [lockPoint?, hcall]; rfl
  have hguard : c.guards t = true := h.fits t _ hcall
  have hkeeps : c.keeps t = true := by rw [keeps, hcall]; rfl
  have hgiven : avail.available = true := by
    rw [Semaphore.give] at hgive
    split at hgive
    · cases hgive
    · obtain ⟨rfl, -⟩ := Prod.mk.inj (Option.some.inj hgive)
      rfl
  rw [retire_of_not_endsLoan rfl]
  refine ⟨_, holder, h.lent.beginDrop t, h.shadows.drop hpoint hguard rfl rfl,
    h.unit.move (.inr (.inr ⟨hkeeps, hgiven, ?_⟩)), h.fits_move fun call' heq => ?_, h.told.quiet rfl⟩
  · rw [keeps_move_self]
    rfl
  · obtain rfl := Option.some.inj heq
    trivial

theorem unlock_cases (h : c.Kept initial s holder) {p : Guarded.Point}
    (hcall : c.calls t = some (.dropping (.unlocking p))) {data : Guarded (List UInt8)}
    {turn : Next Guarded.Point Guarded.Outcome}
    (hstep : Guarded.Steps t c.buffer.data p data turn) :
    (p = .endLoan ∧ turn = .goto (.unlocking .unlockCheck) ∧ c.guards t = true) ∨
    (∃ q r, p = .unlocking q ∧ turn = .goto (.unlocking r) ∧ c.guards t = false) ∨
    (∃ q, p = .unlocking q ∧ turn = .done .released ∧ c.guards t = false ∧ data.IsFree) := by
  have hreleasing : p.IsReleasing := h.fits t _ hcall
  have hpoint : s.point? t = some p := by rw [h.shadows.point, lockPoint?, hcall]; rfl
  have hfits := h.lent.fits t p hpoint
  rw [h.shadows.guards] at hfits
  cases hstep with
  | endLoan => exact .inl ⟨rfl, rfl, hfits⟩
  | unlock => exact .inr (.inl ⟨_, _, rfl, rfl, hfits.1⟩)
  | unlocked hmutex =>
    have hfree := h.lent.free_of_unlocked hpoint (h.shadows.data.symm ▸ hmutex)
    rw [h.shadows.data] at hfree
    obtain ⟨hlent, howner, hheld, htoken⟩ := hfree
    exact .inr (.inr ⟨_, rfl, rfl, hfits.1, hlent, howner, hheld, htoken⟩)
  | lock | locked | overflow | refuse | lend | unwind | unwound => exact hreleasing.elim

theorem unlock (h : c.Kept initial s holder) {p : Guarded.Point}
    (hcall : c.calls t = some (.dropping (.unlocking p))) {data : Guarded (List UInt8)}
    {turn : Next Guarded.Point Guarded.Outcome}
    (hstep : Guarded.step t c.buffer.data p = some (data, turn)) :
    ∃ s' holder', (c.retire t (.unlocking p) (({ c.buffer with data }, c.wakes),
      match turn with
      | .goto p => .goto (.unlocking p)
      | .done _ => .done ())).Kept initial s' holder' := by
  have hsteps := Guarded.steps_of_step hstep
  have hpoint : c.lockPoint? t = some p := by rw [lockPoint?, hcall]; rfl
  have hkeeps : c.keeps t = false := by rw [keeps, hcall]; rfl
  obtain ⟨holder', hlent⟩ := h.lent.handle (.step t)
  rcases h.unlock_cases hcall hsteps with ⟨rfl, rfl, hguard⟩ | ⟨q, r, rfl, rfl, hguard⟩ |
    ⟨q, rfl, rfl, hguard, hfree⟩
  · have hunique : ∀ u, c.guards u = true → u = t := fun u hu =>
      h.lent.guard_unique (h.shadows.guards ▸ hguard) (h.shadows.guards ▸ hu)
    refine ⟨s.handle (.step t), holder', ?_⟩
    rw [retire_endLoan]
    refine ⟨hlent, h.shadows.step hpoint hstep rfl nofun rfl, h.unit.move (.inl ⟨rfl, ?_⟩),
      h.fits_move fun call' heq => ?_, h.told.close hsteps.value_eq hguard hunique⟩
    · rw [keeps_move_self, hkeeps]
      rfl
    · obtain rfl := Option.some.inj heq
      trivial
  · refine ⟨s.handle (.step t), holder', ?_⟩
    rw [retire_of_not_endsLoan rfl]
    refine ⟨hlent, h.shadows.step hpoint hstep rfl nofun rfl, h.unit.move (.inl ⟨rfl, ?_⟩),
      h.fits_move fun call' heq => ?_, h.told.quiet hsteps.value_eq⟩
    · rw [keeps_move_self, hkeeps]
      rfl
    · obtain rfl := Option.some.inj heq
      trivial
  · refine ⟨s.handle (.step t), holder', ?_⟩
    rw [retire_of_not_endsLoan rfl]
    refine ⟨hlent, h.shadows.step hpoint hstep rfl nofun rfl, h.unit.move (.inl ⟨rfl, ?_⟩),
      h.fits_move nofun, ?_⟩
    · rw [keeps_move_self, hkeeps, hguard]
    · refine h.told.aside ?_ rfl hfree
      exact hsteps.value_eq

/-! ### Every event -/

theorem step (h : c.Kept initial s holder) (t : Tid) :
    ∃ s' holder', (c.handle (.step t)).Kept initial s' holder' := by
  simp only [BufferUsers.handle]
  cases hcall : c.calls t with
  | none => exact ⟨s, holder, h⟩
  | some call =>
    cases call with
    | changing change copy => exact h.store hcall
    | acquiring ms p =>
      cases p with
      | givingBack => exact (h.fits t _ hcall).elim
      | taking p =>
        simp only [SharedBuffer.acquireStep]
        cases hstep : (c.take t ms).step (c.buffer.avail, c.wakes) p with
        | none => exact ⟨s, holder, h⟩
        | some next => exact h.take hcall next.1.2 (Take.turns_step hstep)
      | locking p =>
        simp only [SharedBuffer.acquireStep]
        cases hstep : Guarded.step t c.buffer.data p with
        | none => exact ⟨s, holder, h⟩
        | some next => exact h.lock hcall hstep
    | dropping p =>
      cases p with
      | giving =>
        simp only [SharedBuffer.dropStep]
        cases hgive : c.buffer.avail.give c.wakes with
        | none => exact ⟨s, holder, h⟩
        | some next => exact h.give hcall hgive
      | unlocking p =>
        simp only [SharedBuffer.dropStep]
        cases hstep : Guarded.step t c.buffer.data p with
        | none => exact ⟨s, holder, h⟩
        | some next => exact h.unlock hcall hstep

theorem answer (h : c.Kept initial s holder) (t : Tid) (result : CallResult NotificationId) :
    ∃ s' holder', (c.handle (.answer t result)).Kept initial s' holder' := by
  simp only [BufferUsers.handle]
  split
  · rename_i ms p hcall
    split
    · rename_i hinside
      exact h.take hcall _ (Take.turns_answered hinside ..)
    · exact ⟨s, holder, h⟩
  · exact ⟨s, holder, h⟩

theorem handle (h : c.Kept initial s holder) (event : Event) :
    ∃ s' holder', (c.handle event).Kept initial s' holder' := by
  cases event with
  | step t => exact h.step t
  | answer t result => exact h.answer t result
  | signal id wake =>
    exact ⟨s, holder, h.lent, ⟨h.shadows.data, h.shadows.guards, h.shadows.point, h.shadows.copy⟩,
      h.unit, h.fits,
      ⟨h.told.opener, h.told.content, h.told.length, h.told.left, h.told.lawful⟩⟩
  | acquire t ms =>
    simp only [BufferUsers.handle]
    split
    · exact ⟨s, holder, h.acquire ‹_› ms⟩
    · exact ⟨s, holder, h⟩
  | change t change =>
    simp only [BufferUsers.handle]
    split
    · exact h.change ‹_› ‹_› change
    · exact ⟨s, holder, h⟩
  | drop t =>
    simp only [BufferUsers.handle]
    split
    · exact ⟨s, holder, h.drop ‹_› ‹_›⟩
    · exact ⟨s, holder, h⟩

theorem run (h : c.Kept initial s holder) (events : List Event) :
    ∃ s' holder', (c.run events).Kept initial s' holder' := by
  unfold BufferUsers.run
  induction events generalizing c s holder with
  | nil => exact ⟨s, holder, h⟩
  | cons event events ih =>
    obtain ⟨s', holder', hnext⟩ := h.handle event
    exact ih hnext

/-! ### Who waits for whom -/

theorem not_holder (h : c.Kept initial s holder) (hpoint : c.lockPoint? t = none)
    (hguard : c.guards t = false) : holder ≠ some t := by
  intro hholder
  have hplace : s.point? t = none := h.shadows.point ▸ hpoint
  have hsees := h.lent.sees hholder (congrArg Guarded.mutexPlace hplace)
  have hdepth : s.depth t = 0 := by
    rw [Borrowers.depth, hplace, h.shadows.guards, hguard]
    rfl
  exact absurd hsees.2.2.1 (by rw [hdepth]; decide)

/-- A thread that unlocks the bytes is never blocked. -/
theorem unlocks (h : c.Kept initial s holder) {p : Guarded.Point}
    (hcall : c.calls t = some (.dropping (.unlocking p))) :
    (Guarded.step t c.buffer.data p).isSome = true := by
  rw [Option.isSome_iff_ne_none]
  intro hblocked
  have hreleasing : p.IsReleasing := h.fits t _ hcall
  have hpoint : s.point? t = some p := by rw [h.shadows.point, lockPoint?, hcall]; rfl
  rw [Guarded.eq_lockAwait_of_blocked (h.lent.fits t p hpoint) hblocked] at hreleasing
  exact hreleasing

/-- A thread that waits for the bytes waits for one that has put the unit back and unlocks them. -/
theorem window (h : c.Kept initial s holder) {ms : Int32} {p : Guarded.Point}
    (hcall : c.calls t = some (.acquiring ms (.locking p)))
    (hblocked : Guarded.step t c.buffer.data p = none) :
    ∃ u q, u ≠ t ∧ c.calls u = some (.dropping (.unlocking q)) := by
  have hpoint : s.point? t = some p := by rw [h.shadows.point, lockPoint?, hcall]; rfl
  obtain rfl := Guarded.eq_lockAwait_of_blocked (h.lent.fits t p hpoint) hblocked
  have htoken : s.guarded.mutex.token.isPending ≠ true := by
    intro hpending
    obtain ⟨token, htoken⟩ := Option.isSome_iff_exists.1 hpending
    rw [h.shadows.data] at htoken
    simp [Guarded.step, Mutex.step, Notification.poll, htoken] at hblocked
  obtain ⟨u, rfl⟩ := Option.ne_none_iff_exists'.1 (mt h.lent.orderly.isPending_iff.2 htoken)
  have hut : u ≠ t := by
    rintro rfl
    exact h.lent.sees rfl (congrArg Guarded.mutexPlace hpoint)
  -- the unit is with the thread that waits, and so the other one has put it back
  have hkeeps : c.keeps u = false := by
    by_contra hu
    have ht : c.keeps t = true := by rw [keeps, hcall]; rfl
    exact hut (h.unit.unique (by simpa using hu) ht)
  refine ⟨u, ?_⟩
  rw [keeps] at hkeeps
  cases hother : c.calls u with
  | none =>
    rw [hother] at hkeeps
    exact absurd rfl (h.not_holder (by rw [lockPoint?, hother]; rfl) hkeeps)
  | some call =>
    rw [hother] at hkeeps
    have hfits := h.fits u call hother
    cases call with
    | changing change copy => exact absurd (hkeeps.symm.trans hfits) (by decide)
    | acquiring ms p =>
      cases p with
      | taking p => exact absurd rfl (h.not_holder (by rw [lockPoint?, hother]; rfl) hkeeps)
      | locking p => cases hkeeps
      | givingBack => cases hkeeps
    | dropping p =>
      cases p with
      | giving => cases hkeeps
      | unlocking q => exact ⟨q, hut, rfl⟩

end Kept

theorem kept_start (size maxWaiters : Nat) (clock : Option ClockClient) (wakes : Wakes)
    (wait : Tid → NotificationId) :
    (start size maxWaiters clock wakes wait).Kept (List.replicate size 0)
      (.start (List.replicate size 0)) none where
  lent := Borrowers.kept_start _
  shadows := ⟨rfl, rfl, rfl, nofun⟩
  unit := ⟨none, rfl, fun _ => ⟨nofun, nofun⟩⟩
  fits := nofun
  told := ⟨fun _ => ⟨nofun, nofun⟩, rfl, rfl, fun _ => rfl, lawful_nil⟩

/-! ## The buffer is exclusive -/

/-- What holds of a shared buffer and its users at every moment. -/
structure Exclusive (size : Nat) (c : BufferUsers) : Prop where
  /-- A new guard sees what the last one left, or zeros; a change is made to the bytes that the guard saw,
  as far as it fits; and a thread that is refused a guard never is for a loan that is not over. -/
  lawful : Lawful (BufferDeed.Law (List.replicate size 0)) c.history
  guard_unique : ∀ t u, c.guards t = true → c.guards u = true → t = u
  length : c.buffer.bytes.length = size
  /-- Whoever changes the bytes has the guard, and the bytes are as it read them. -/
  changes : ∀ t change copy, c.calls t = some (.changing change copy) →
    c.guards t = true ∧ copy = c.buffer.bytes
  /-- A thread that has the guard does not come to the lock when it acquires the buffer again. -/
  apart : ∀ t timeoutMs p, c.guards t = true → c.calls t = some (.acquiring timeoutMs p) →
    ∃ q, p = .taking q
  /-- No thread that has the unit is refused the lock. -/
  unrefused : ∀ t timeoutMs, c.calls t ≠ some (.acquiring timeoutMs .givingBack)
  available_iff : c.buffer.avail.available = true ↔ ∀ t, c.keeps t = false
  keeper_unique : ∀ t u, c.keeps t = true → c.keeps u = true → t = u
  /-- A thread that has the unit and finds the bytes locked waits for one that drops its guard. -/
  window : ∀ t timeoutMs p, c.calls t = some (.acquiring timeoutMs (.locking p)) →
    Guarded.step t c.buffer.data p = none →
    ∃ u q, u ≠ t ∧ c.calls u = some (.dropping (.unlocking q)) ∧
      (Guarded.step u c.buffer.data q).isSome = true
  /-- When all guards are dropped, and nobody is past its take, the buffer is free. -/
  free : (∀ t, c.guards t = false) →
    (∀ t call, c.calls t = some call → ∃ timeoutMs p, call = .acquiring timeoutMs (.taking p)) →
    c.buffer.avail.available = true ∧ c.buffer.data.IsFree

theorem Kept.free (h : c.Kept initial s holder) (hguards : ∀ t, c.guards t = false)
    (hcalls : ∀ t call, c.calls t = some call →
      ∃ timeoutMs p, call = .acquiring timeoutMs (.taking p)) :
    c.buffer.avail.available = true ∧ c.buffer.data.IsFree := by
  have hidle : ∀ t, c.lockPoint? t = none ∧ c.keeps t = false := by
    intro t
    rw [lockPoint?, keeps]
    cases hcall : c.calls t with
    | none => exact ⟨rfl, hguards t⟩
    | some call =>
      obtain ⟨ms, p, rfl⟩ := hcalls t call hcall
      exact ⟨rfl, hguards t⟩
  have hholder : holder = none := by
    cases holder with
    | none => rfl
    | some t => exact absurd rfl (h.not_holder (hidle t).1 (hguards t))
  obtain ⟨howner, hheld⟩ := h.lent.orderly.free hholder
  have hpending := h.lent.orderly.isPending_iff.2 hholder
  have hlent : s.guarded.lent = false := by
    rw [← Bool.not_eq_true, h.lent.lent_iff, h.shadows.guards]
    rintro ⟨t, ht⟩
    rw [hguards t] at ht
    cases ht
  rw [h.shadows.data] at howner hheld hpending hlent
  exact ⟨h.unit.available_iff.2 fun t => (hidle t).2, hlent, howner, hheld, hpending⟩

theorem Kept.exclusive {size : Nat} (h : c.Kept (List.replicate size 0) s holder) :
    c.Exclusive size where
  lawful := h.told.lawful
  guard_unique t u ht hu :=
    (h.lent.guard_unique (h.shadows.guards ▸ ht) (h.shadows.guards ▸ hu)).symm
  length := h.told.length.trans List.length_replicate
  changes t change copy hcall := by
    obtain ⟨-, hvalue, -⟩ := h.lent.copy t copy (h.shadows.copy hcall)
    exact ⟨h.fits t _ hcall, hvalue.trans (congrArg Guarded.value h.shadows.data)⟩
  apart t ms p hguard hcall := by
    have hfits := h.fits t _ hcall
    cases p with
    | taking q => exact ⟨q, rfl⟩
    | locking q => exact absurd (hguard.symm.trans hfits.1) (by decide)
    | givingBack => exact hfits.elim
  unrefused t ms hcall := (h.fits t _ hcall).elim
  available_iff := h.unit.available_iff
  keeper_unique _ _ := h.unit.unique
  window t ms p hcall hblocked := by
    obtain ⟨u, q, hne, hother⟩ := h.window hcall hblocked
    exact ⟨u, q, hne, hother, h.unlocks hother⟩
  free := h.free

/-- However threads acquire a shared buffer, change its bytes and drop their guards, whatever the clock
answers and whoever signals them, the buffer is exclusive and keeps its bytes. -/
theorem buffer_exclusive (size maxWaiters : Nat) (clock : Option ClockClient) (wakes : Wakes)
    (wait : Tid → NotificationId) (events : List Event) :
    ((start size maxWaiters clock wakes wait).run events).Exclusive size := by
  obtain ⟨s, holder, h⟩ := (kept_start size maxWaiters clock wakes wait).run events
  exact h.exclusive

/-- A thread that drops its guard has the bytes still when the next one has won the buffer; that one then
sees what it left. -/
example :
    let a := Tid.ofIndex 0
    let b := Tid.ofIndex 1
    let window := (start 2 2 none (.ofCount 2) fun t => if t = a then 0 else 1).run
      (.acquire a (-1) :: List.replicate 7 (.step a) ++
        [.change a (.poke 0 7), .step a, .drop a, .step a, .acquire b (-1)] ++
        List.replicate 3 (.step b))
    let last := window.run (List.replicate 6 (.step a) ++ List.replicate 5 (.step b))
    window.guards a = true ∧ window.keeps b = true ∧
      BufferDeed.opener last.history = some b ∧ last.buffer.bytes = [7, 0] := by
  decide +kernel

end BufferUsers

end Osal
