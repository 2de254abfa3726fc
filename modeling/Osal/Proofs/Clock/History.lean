import Osal.Proofs.Clock.Lockstep

/-!
# The life of a timeout

A history tells in order what a run does to timeouts: which are granted, cancelled and fired, and which
notifications they signal. `every_timeout_accounted`: what it tells of one name is always one of a few
lives. A one-shot is pending, or fired once, or was cancelled once; a periodic timeout fires until it is
cancelled; and an operation leaves alone every timeout that it does not concern.

A life grows by what one operation does to one name (`Turn`), which is read off the state before.
-/

namespace Osal

namespace Schedule

/-- What is told of a timeout. -/
inductive Note where
  | granted (id : TimeoutId) (periodic : Bool) (wake : NotificationId)
  | cancelled (id : TimeoutId)
  | signalled (id : TimeoutId) (wake : NotificationId)
  | fired (id : TimeoutId)
  deriving DecidableEq

def Note.id : Note → TimeoutId
  | .granted id .. | .cancelled id | .signalled id _ | .fired id => id

/-- What a fire does to a due timeout: it signals the capability that it finds, and counts it. -/
def fireNote (now : Tick) (f f' : Firing) (e : TimeoutEntry) : List Note :=
  (if tickReached now e.nextFire then
    match f.caps.lookupWith e.id.cptr .write with
    | .ok wake => [.signalled e.id wake]
    | .error _ => []
  else []) ++
    if f.fired < f'.fired then [.fired e.id] else []

def notes (s : Schedule) : Op → List Note
  | .insert now requester periodic period wake =>
    match (s.insert now requester periodic period wake).1 with
    | .ok id => [.granted id periodic wake]
    | .error _ => []
  | .cancel id =>
    match (s.cancel id).1 with
    | .ok () => [.cancelled id]
    | .error _ => []
  | .fire wakes now => s.fireNotes (fireNote now) wakes now

def history (s : Schedule) : List Op → List Note
  | [] => []
  | op :: ops => s.notes op ++ (s.perform op).2.history ops

def about (id : TimeoutId) (notes : List Note) : List Note := notes.filter (·.id = id)

def IsPending (s : Schedule) (id : TimeoutId) : Prop := ∃ e ∈ s.pending, e.id = id

/-- The kind of a timeout and the notification that it signals, while it is pending. -/
abbrev Standing := Option (Bool × NotificationId)

/-- How a timeout stands in a schedule. -/
def Stands (s : Schedule) (id : TimeoutId) : Standing → Prop
  | none => ¬ s.IsPending id
  | some (periodic, wake) =>
    (∃ e ∈ s.pending, e.id = id ∧ e.periodic = periodic) ∧ s.wakeOf id = some wake

/-- What an operation does to one timeout. -/
inductive Turn (id : TimeoutId) : Standing → List Note → Standing → Prop where
  | rest (standing : Standing) : Turn id standing [] standing
  | start (periodic : Bool) (wake : NotificationId) :
    Turn id none [.granted id periodic wake] (some (periodic, wake))
  | rearm (wake : NotificationId) :
    Turn id (some (true, wake)) [.signalled id wake, .fired id] (some (true, wake))
  | expire (wake : NotificationId) :
    Turn id (some (false, wake)) [.signalled id wake, .fired id] none
  | cancel (periodic : Bool) (wake : NotificationId) :
    Turn id (some (periodic, wake)) [.cancelled id] none

variable {s : Schedule} {n capacity : Nat} {id : TimeoutId} {now period : Tick} {requester : Badge}
  {periodic : Bool} {wake : NotificationId} {wakes : Wakes} {standing : Standing} {e : TimeoutEntry}

/-! ## What one operation does to one timeout -/

@[simp] theorem about_append (id : TimeoutId) (notes notes' : List Note) :
    about id (notes ++ notes') = about id notes ++ about id notes' :=
  List.filter_append notes notes'

theorem about_eq_nil {notes : List Note} (h : ∀ note ∈ notes, note.id ≠ id) : about id notes = [] :=
  List.filter_eq_nil_iff.2 fun note hnote => by simpa using h note hnote

theorem about_eq_self {notes : List Note} (h : ∀ note ∈ notes, note.id = id) :
    about id notes = notes :=
  List.filter_eq_self.2 fun note hnote => by simpa using h note hnote

theorem Lockstep.eq_of_id (h : s.Lockstep n) {e e' : TimeoutEntry} (he : e ∈ s.pending)
    (he' : e' ∈ s.pending) (hid : e.id = e'.id) : e = e' :=
  List.inj_on_of_nodup_map h.ids_nodup he he' hid

def firedNotes (s : Schedule) (now : Tick) (e : TimeoutEntry) : List Note :=
  if e.isDue now then ((s.wakeOf e.id).map (Note.signalled e.id)).toList ++ [.fired e.id] else []

theorem id_of_mem_firedNotes {note : Note} (h : note ∈ s.firedNotes now e) : note.id = e.id := by
  unfold firedNotes at h
  split at h
  · rcases List.mem_append.1 h with h | h
    · obtain ⟨wake, -, rfl⟩ := Option.map_eq_some_iff.1 (Option.mem_toList.1 h)
      rfl
    · obtain rfl := List.mem_singleton.1 h
      rfl
  · cases h

theorem notes_fire (h : s.Lockstep n) (wakes : Wakes) (now : Tick) :
    s.notes (.fire wakes now) = s.pending.flatMap (s.firedNotes now) := by
  refine fireNotes_eq (s.firedNotes now) h fun before e after f slot hmatched hcaps => ?_
  obtain ⟨cap, hlookup, hwith⟩ := hmatched.lookupWith_of_mem (e := e) (by simp)
  have hwake : s.wakeOf e.id = some cap.object := by rw [wakeOf, ← hcaps, hlookup]; rfl
  rcases fireEntry_cases hmatched now slot with ⟨hdue, hvisit⟩ | ⟨hdue, -, hvisit⟩ |
    ⟨hdue, -, cap', caps, -, hvisit, -⟩
  · have hreached : tickReached now e.nextFire = false := hdue
    simp [fireNote, firedNotes, hvisit, hdue, hreached]
  · have hreached : tickReached now e.nextFire = true := hdue
    simp [fireNote, firedNotes, hvisit, hdue, hreached, hwith, hwake]
  · have hreached : tickReached now e.nextFire = true := hdue
    simp [fireNote, firedNotes, hvisit, hdue, hreached, hwith, hwake]

theorem about_notes_fire_of_notMem (h : s.Lockstep n) (hid : ¬ s.IsPending id) :
    about id (s.notes (.fire wakes now)) = [] := by
  rw [notes_fire h]
  refine about_eq_nil fun note hnote heq => ?_
  obtain ⟨e, he, hnote⟩ := List.mem_flatMap.1 hnote
  exact hid ⟨e, he, (id_of_mem_firedNotes hnote).symm.trans heq⟩

theorem about_notes_fire_of_mem (h : s.Lockstep n) (he : e ∈ s.pending) :
    about e.id (s.notes (.fire wakes now)) = s.firedNotes now e := by
  obtain ⟨front, back, hsplit⟩ := List.append_of_mem he
  have hne := (hsplit ▸ h.matched).ne_of_mem_rest
  have hothers : ∀ entries : List TimeoutEntry, (∀ e' ∈ entries, e' ∈ front ++ back) →
      about e.id (entries.flatMap (s.firedNotes now)) = [] := by
    intro entries hentries
    refine about_eq_nil fun note hnote heq => ?_
    obtain ⟨e', he', hnote⟩ := List.mem_flatMap.1 hnote
    rw [id_of_mem_firedNotes hnote] at heq
    exact hne e' (hentries e' he') (congrArg TimeoutId.cptr heq)
  rw [notes_fire h, hsplit, List.flatMap_append, List.flatMap_cons, about_append, about_append,
    hothers front fun _ => List.mem_append_left _, hothers back fun _ => List.mem_append_right _,
    about_eq_self fun _ => id_of_mem_firedNotes, List.nil_append, List.append_nil]

theorem fire_of_due (h : s.Lockstep n) (he : e ∈ s.pending)
    (hdue : tickReached now e.nextFire = true) (wakes : Wakes) :
    ∃ wake, s.wakeOf e.id = some wake ∧
      about e.id (s.notes (.fire wakes now)) = [.signalled e.id wake, .fired e.id] ∧
      if e.periodic then e.rearm now ∈ (s.perform (.fire wakes now)).2.pending ∧
        (s.perform (.fire wakes now)).2.wakeOf e.id = some wake
      else ¬ (s.perform (.fire wakes now)).2.IsPending e.id := by
  have hisDue : e.isDue now = true := hdue
  obtain ⟨wake, hwake⟩ := h.wakeOf_of_mem he
  obtain ⟨s', hfire, -, -, hpending, hkeeps⟩ := fire_spec h wakes now
  refine ⟨wake, hwake, ?_, ?_⟩
  · rw [about_notes_fire_of_mem h he, firedNotes, if_pos hisDue, hwake]
    rfl
  · simp only [perform, hfire]
    split
    · have hrearmed : e.rearm now ∈ s'.pending := by
        rw [hpending, List.mem_filterMap]
        exact ⟨e, he, by rw [TimeoutEntry.afterFire, if_pos hisDue, if_pos ‹_›]⟩
      exact ⟨hrearmed, (hkeeps _ hrearmed).trans hwake⟩
    · rintro ⟨e', he', heq⟩
      rw [hpending, List.mem_filterMap] at he'
      obtain ⟨e₀, he₀, hafter⟩ := he'
      obtain rfl := h.eq_of_id he₀ he ((TimeoutEntry.id_of_afterFire hafter).1.symm.trans heq)
      rw [TimeoutEntry.afterFire, if_pos hisDue, if_neg ‹_›] at hafter
      cases hafter

theorem stands_of_notMem (h : s.Stands id standing) (hid : ¬ s.IsPending id) : standing = none := by
  cases standing with
  | none => rfl
  | some kind =>
    obtain ⟨⟨e, he, heq, -⟩, -⟩ := h
    exact absurd ⟨e, he, heq⟩ hid

theorem Stands.congr {s' : Schedule} (h : s.Stands id standing)
    (hpending : ∀ e, e.id = id → (e ∈ s'.pending ↔ e ∈ s.pending))
    (hwake : s.IsPending id → s'.wakeOf id = s.wakeOf id) : s'.Stands id standing := by
  cases standing with
  | none =>
    rintro ⟨e, he, heq⟩
    exact h ⟨e, (hpending e heq).1 he, heq⟩
  | some kind =>
    obtain ⟨⟨e, he, heq, hkind⟩, hwakeOf⟩ := h
    exact ⟨⟨e, (hpending e heq).2 he, heq, hkind⟩, (hwake ⟨e, he, heq⟩).trans hwakeOf⟩

/-- The timeouts that an operation concerns: the one that it grants, the one that it is to cancel, or
all that are due. -/
def Concerns (s : Schedule) (id : TimeoutId) : Op → Prop
  | .insert now requester periodic period wake =>
    (s.insert now requester periodic period wake).1 = .ok id
  | .cancel cancelled => cancelled = id
  | .fire _ now => ∃ e ∈ s.pending, e.id = id ∧ tickReached now e.nextFire = true

/-- An operation leaves a timeout alone: it neither removes nor changes nor signals it. -/
structure LeavesAlone (s : Schedule) (op : Op) (id : TimeoutId) : Prop where
  pending_iff : ∀ e, e.id = id → (e ∈ (s.perform op).2.pending ↔ e ∈ s.pending)
  wakeOf_eq : s.IsPending id → (s.perform op).2.wakeOf id = s.wakeOf id
  about_eq : about id (s.notes op) = []

theorem insert_of_room (h : s.Lockstep n) (hroom : s.size < s.capacity)
    (hn : n + grants [(s.perform (.insert now requester periodic period wake)).1] ≤ maxGranted) :
    ∃ s', s.insert now requester periodic period wake = (.ok s.nextId, s') ∧
      s'.pending = s.pending ++
        [{ id := s.nextId, requester, periodic, period, nextFire := now + period }] ∧
      s.nextId.cptr.toNat = n + 1 ∧
      s'.wakeOf s.nextId = some wake ∧ ∀ id ≠ s.nextId, s'.wakeOf id = s.wakeOf id := by
  obtain ⟨id, s₁, hok⟩ := insert_isOk_of_lt h hroom now requester periodic period wake
  simp only [perform, hok] at hn
  obtain ⟨s', hinsert, -, -, hrest⟩ := insert_of_lt h hn hroom now requester periodic period wake
  exact ⟨s', hinsert, hrest⟩

theorem leavesAlone_insert (h : s.Lockstep n)
    (hn : n + grants [(s.perform (.insert now requester periodic period wake)).1] ≤ maxGranted)
    (hid : ¬ s.Concerns id (.insert now requester periodic period wake)) :
    s.LeavesAlone (.insert now requester periodic period wake) id := by
  rcases Nat.lt_or_eq_of_le h.size_le with hroom | hfull
  · obtain ⟨s', hinsert, hpending, -, -, hothers⟩ := insert_of_room h hroom hn
    have hne : s.nextId ≠ id := fun heq => hid (by rw [Concerns, hinsert, heq])
    refine ⟨fun e he => ?_, fun _ => ?_, ?_⟩
    · simp only [perform, hinsert, hpending, List.mem_append, List.mem_singleton, or_iff_left_iff_imp]
      rintro rfl
      exact absurd he hne
    · simp only [perform, hinsert]
      exact hothers id hne.symm
    · simp only [notes, hinsert]
      refine about_eq_nil fun note hnote => ?_
      obtain rfl := List.mem_singleton.1 hnote
      exact hne
  · have hinsert : s.insert now requester periodic period wake = (.error .schedulerFull, s) :=
      insert_of_full h hfull
    refine ⟨fun e _ => ?_, fun _ => ?_, ?_⟩
    · simp only [perform, hinsert]
    · simp only [perform, hinsert]
    · simp only [notes, hinsert]
      rfl

theorem leavesAlone_cancel (h : s.Lockstep n) {cancelled : TimeoutId} (hid : cancelled ≠ id) :
    s.LeavesAlone (.cancel cancelled) id := by
  by_cases hmem : s.IsPending cancelled
  · obtain ⟨s', hcancel, -, -, hpending, hothers⟩ := cancel_of_mem h hmem
    refine ⟨fun e he => ?_, fun _ => ?_, ?_⟩
    · simp only [perform, hcancel, hpending, List.mem_filter, bne_iff_ne, and_iff_left_iff_imp]
      rintro - rfl
      exact hid he
    · simp only [perform, hcancel]
      exact hothers id hid.symm
    · simp only [notes, hcancel]
      refine about_eq_nil fun note hnote => ?_
      obtain rfl := List.mem_singleton.1 hnote
      exact hid
  · have hcancel := cancel_of_notMem h fun e he heq => hmem ⟨e, he, heq⟩
    refine ⟨fun e _ => ?_, fun _ => ?_, ?_⟩
    · simp only [perform, hcancel]
    · simp only [perform, hcancel]
    · simp only [notes, hcancel]
      rfl

theorem leavesAlone_fire (h : s.Lockstep n) (hid : ¬ s.Concerns id (.fire wakes now)) :
    s.LeavesAlone (.fire wakes now) id := by
  have hkept : ∀ e ∈ s.pending, e.id = id → e.isDue now = false := fun e he heq => by
    by_contra hdue
    exact hid ⟨e, he, heq, by simpa [TimeoutEntry.isDue] using hdue⟩
  obtain ⟨s', hfire, -, -, hpending, hwake⟩ := fire_spec h wakes now
  have hmem : ∀ e, e.id = id → (e ∈ s'.pending ↔ e ∈ s.pending) := by
    intro e heq
    rw [hpending, List.mem_filterMap]
    constructor
    · rintro ⟨e₀, he₀, hafter⟩
      have hdue := hkept e₀ he₀ ((TimeoutEntry.id_of_afterFire hafter).1.symm.trans heq)
      rw [TimeoutEntry.afterFire, hdue] at hafter
      exact Option.some.inj hafter ▸ he₀
    · intro he
      exact ⟨e, he, by rw [TimeoutEntry.afterFire, hkept e he heq]; rfl⟩
  refine ⟨fun e heq => ?_, ?_, ?_⟩
  · simp only [perform, hfire]
    exact hmem e heq
  · rintro ⟨e, he, rfl⟩
    simp only [perform, hfire]
    exact hwake e ((hmem e rfl).2 he)
  · by_cases hpend : s.IsPending id
    · obtain ⟨e, he, rfl⟩ := hpend
      rw [about_notes_fire_of_mem h he, firedNotes, hkept e he rfl]
      rfl
    · exact about_notes_fire_of_notMem h hpend

theorem leavesAlone (h : s.Lockstep n) (op : Op) (hn : n + grants [(s.perform op).1] ≤ maxGranted)
    (hid : ¬ s.Concerns id op) : s.LeavesAlone op id := by
  cases op with
  | insert now requester periodic period wake => exact leavesAlone_insert h hn hid
  | cancel cancelled => exact leavesAlone_cancel h hid
  | fire wakes now => exact leavesAlone_fire h hid

theorem turn_of_concerns (h : s.Lockstep n) (op : Op)
    (hn : n + grants [(s.perform op).1] ≤ maxGranted) (hid : s.Concerns id op)
    (hstands : s.Stands id standing) :
    ∃ next, (s.perform op).2.Stands id next ∧ Turn id standing (about id (s.notes op)) next := by
  cases op with
  | insert now requester periodic period wake =>
    rcases Nat.lt_or_eq_of_le h.size_le with hroom | hfull
    · obtain ⟨s', hinsert, hpending, hnext, hwake, -⟩ := insert_of_room h hroom hn
      rw [Concerns, hinsert] at hid
      obtain rfl := Except.ok.inj hid
      -- the new name is greater than those that are pending
      have hfresh : ¬ s.IsPending s.nextId := by
        rintro ⟨e, he, heq⟩
        have hnamed := h.named e he
        rw [heq] at hnamed
        omega
      obtain rfl := stands_of_notMem hstands hfresh
      refine ⟨some (periodic, wake), ?_, ?_⟩
      · simp only [perform, hinsert, Stands, hpending]
        exact ⟨⟨_, List.mem_append_right _ (List.mem_singleton_self _), rfl, rfl⟩, hwake⟩
      · simp only [notes, hinsert]
        rw [about_eq_self fun note hnote => by rw [List.mem_singleton.1 hnote]; rfl]
        exact .start periodic wake
    · rw [Concerns, insert_of_full h hfull] at hid
      cases hid
  | cancel cancelled =>
    obtain rfl : cancelled = id := hid
    by_cases hmem : s.IsPending cancelled
    · obtain ⟨s', hcancel, -, -, hpending, -⟩ := cancel_of_mem h hmem
      cases standing with
      | none => exact absurd hmem hstands
      | some kind =>
        refine ⟨none, ?_, ?_⟩
        · simp only [perform, hcancel]
          rintro ⟨e, he, heq⟩
          rw [hpending] at he
          simpa [heq] using (List.mem_filter.1 he).2
        · simp only [notes, hcancel]
          rw [about_eq_self fun note hnote => by rw [List.mem_singleton.1 hnote]; rfl]
          exact .cancel kind.1 kind.2
    · have hcancel := cancel_of_notMem h fun e he heq => hmem ⟨e, he, heq⟩
      refine ⟨standing, ?_, ?_⟩
      · simpa only [perform, hcancel] using hstands
      · simp only [notes, hcancel]
        exact .rest standing
  | fire wakes now =>
    obtain ⟨e, he, rfl, hdue⟩ := hid
    obtain ⟨wake, hwake, habout, hafter⟩ := fire_of_due h he hdue wakes
    cases standing with
    | none => exact absurd ⟨e, he, rfl⟩ hstands
    | some kind =>
      obtain ⟨⟨e', he', heq, hkind⟩, hkindWake⟩ := hstands
      obtain rfl := h.eq_of_id he' he heq
      obtain rfl : kind = (e'.periodic, wake) :=
        Prod.ext hkind.symm (Option.some.inj (hkindWake.symm.trans hwake))
      rw [habout]
      cases hperiodic : e'.periodic with
      | true =>
        rw [if_pos hperiodic] at hafter
        exact ⟨some (true, wake), ⟨⟨_, hafter.1, rfl, hperiodic⟩, hafter.2⟩, .rearm wake⟩
      | false =>
        rw [if_neg (by simp [hperiodic])] at hafter
        exact ⟨none, hafter, .expire wake⟩

theorem perform_turn (h : s.Lockstep n) (op : Op) (hn : n + grants [(s.perform op).1] ≤ maxGranted)
    (hstands : s.Stands id standing) :
    ∃ next, (s.perform op).2.Stands id next ∧ Turn id standing (about id (s.notes op)) next := by
  by_cases hid : s.Concerns id op
  · exact turn_of_concerns h op hn hid hstands
  · have halone := leavesAlone h op hn hid
    refine ⟨standing, hstands.congr halone.pending_iff halone.wakeOf_eq, ?_⟩
    rw [halone.about_eq]
    exact .rest standing

theorem toNat_of_granted (h : s.Lockstep n) {op : Op}
    (hn : n + grants [(s.perform op).1] ≤ maxGranted)
    (hgranted : .granted id periodic wake ∈ s.notes op) :
    id.cptr.toNat = n + 1 ∧ grants [(s.perform op).1] = 1 := by
  cases op with
  | insert now requester kind period notified =>
    rcases Nat.lt_or_eq_of_le h.size_le with hroom | hfull
    · obtain ⟨s', hinsert, -, hnext, -⟩ := insert_of_room h hroom hn
      simp only [notes, hinsert, List.mem_singleton, Note.granted.injEq] at hgranted
      obtain ⟨rfl, -, -⟩ := hgranted
      simp only [perform, hinsert]
      exact ⟨hnext, rfl⟩
    · simp only [notes, insert_of_full h hfull, List.not_mem_nil] at hgranted
  | cancel cancelled =>
    simp only [notes] at hgranted
    split at hgranted
    · cases List.mem_singleton.1 hgranted
    · cases hgranted
  | fire wakes now =>
    rw [notes_fire h] at hgranted
    obtain ⟨e, -, hnote⟩ := List.mem_flatMap.1 hgranted
    unfold firedNotes at hnote
    split at hnote
    · rcases List.mem_append.1 hnote with hnote | hnote
      · obtain ⟨k, -, hk⟩ := Option.map_eq_some_iff.1 (Option.mem_toList.1 hnote)
        cases hk
      · cases List.mem_singleton.1 hnote
    · cases hnote

/-! ## Lives -/

/-- What is told of a timeout that fires a number of times. -/
def pulses (id : TimeoutId) (wake : NotificationId) (count : Nat) : List Note :=
  (List.replicate count [.signalled id wake, .fired id]).flatten

/-- What a history can tell of one name, and how the timeout stands then. -/
inductive Life (id : TimeoutId) : List Note → Standing → Prop where
  | unknown : Life id [] none
  | awaited (wake : NotificationId) : Life id [.granted id false wake] (some (false, wake))
  | expired (wake : NotificationId) :
    Life id [.granted id false wake, .signalled id wake, .fired id] none
  | withdrawn (wake : NotificationId) : Life id [.granted id false wake, .cancelled id] none
  | beating (wake : NotificationId) (count : Nat) :
    Life id (.granted id true wake :: pulses id wake count) (some (true, wake))
  | stopped (wake : NotificationId) (count : Nat) :
    Life id (.granted id true wake :: pulses id wake count ++ [.cancelled id]) none

theorem pulses_succ (id : TimeoutId) (wake : NotificationId) (count : Nat) :
    pulses id wake (count + 1) = pulses id wake count ++ [.signalled id wake, .fired id] := by
  rw [pulses, List.replicate_succ', List.flatten_concat]
  rfl

/-- A life goes on by turns, and starts only once. -/
theorem Life.append_turn {told more : List Note} {next : Standing} (h : Life id told standing)
    (hturn : Turn id standing more next)
    (hfresh : ∀ periodic wake, .granted id periodic wake ∈ more → told = []) :
    Life id (told ++ more) next := by
  cases hturn with
  | rest => rwa [List.append_nil]
  | start periodic wake =>
    rw [hfresh periodic wake (List.mem_singleton_self _), List.nil_append]
    cases periodic with
    | false => exact .awaited wake
    | true => exact .beating wake 0
  | rearm wake =>
    cases h with
    | beating _ count =>
      rw [List.cons_append, ← pulses_succ]
      exact .beating wake (count + 1)
  | expire wake =>
    cases h with
    | awaited => exact .expired wake
  | cancel periodic wake =>
    cases h with
    | awaited => exact .withdrawn wake
    | beating _ count => exact .stopped wake count

/-- What is told of each name is its life, and names that are not granted yet are not told of. -/
structure Told (n : Nat) (s : Schedule) (told : List Note) : Prop where
  life : ∀ id, ∃ standing, s.Stands id standing ∧ Life id (about id told) standing
  named : ∀ note ∈ told, note.id.cptr.toNat ≤ n

theorem told_of_empty (h : s.pending = []) : s.Told 0 [] :=
  { life := fun id => ⟨none, (fun ⟨e, he, _⟩ => by rw [h] at he; cases he), .unknown⟩
    named := fun note hnote => by cases hnote }

theorem Told.perform {told : List Note} (h : s.Told n told) (hlock : s.Lockstep n) (op : Op)
    (hn : n + grants [(s.perform op).1] ≤ maxGranted) :
    (s.perform op).2.Told (n + grants [(s.perform op).1]) (told ++ s.notes op) := by
  refine ⟨fun id => ?_, fun note hnote => ?_⟩
  · obtain ⟨standing, hstands, hlife⟩ := h.life id
    obtain ⟨next, hnext, hturn⟩ := perform_turn hlock op hn hstands
    refine ⟨next, hnext, about_append id told _ ▸ hlife.append_turn hturn fun periodic wake hgrant => ?_⟩
    have hnew := (toNat_of_granted hlock hn (List.mem_filter.1 hgrant).1).1
    refine about_eq_nil fun note hnote heq => ?_
    have hold := h.named note hnote
    rw [heq] at hold
    omega
  · rcases List.mem_append.1 hnote with hold | hnew
    · exact Nat.le_add_right_of_le (h.named note hold)
    · obtain ⟨standing, hstands, -⟩ := h.life note.id
      obtain ⟨next, -, hturn⟩ := perform_turn hlock op hn hstands
      have hmem : note ∈ about note.id (s.notes op) := List.mem_filter.2 ⟨hnew, by simp⟩
      -- a name that is told of is granted now or was pending
      cases standing with
      | some kind =>
        obtain ⟨⟨e, he, heq, -⟩, -⟩ := hstands
        exact Nat.le_add_right_of_le (heq ▸ hlock.named e he)
      | none =>
        generalize hnotes : about note.id (s.notes op) = more at hturn hmem
        cases hturn with
        | rest => cases hmem
        | start periodic wake =>
          have hgranted : .granted note.id periodic wake ∈ s.notes op := by
            have hstart : .granted note.id periodic wake ∈ about note.id (s.notes op) := by
              rw [hnotes]
              exact List.mem_singleton_self _
            exact (List.mem_filter.1 hstart).1
          obtain ⟨hnext, hone⟩ := toNat_of_granted hlock hn hgranted
          exact Nat.le_of_eq (hone.symm ▸ hnext)

theorem Told.run {told : List Note} (h : s.Told n told) (hlock : s.Lockstep n) (ops : List Op)
    (hn : n + grants (s.run ops).1 ≤ maxGranted) :
    (s.run ops).2.Told (n + grants (s.run ops).1) (told ++ s.history ops) := by
  induction ops generalizing s n told with
  | nil =>
    rw [history, List.append_nil]
    exact h
  | cons op ops ih =>
    simp only [Schedule.run, history] at hn ⊢
    rw [grants_cons, ← Nat.add_assoc] at hn ⊢
    rw [← List.append_assoc]
    have hop : n + grants [(s.perform op).1] ≤ maxGranted := by omega
    exact ih (h.perform hlock op hop) (perform_lockstep hlock op hop).1 hn

/-! ## Fires -/

def signalNotes (now : Tick) (notes : List Note) (wakes : Wakes) : Wakes :=
  notes.foldl (fun wakes note =>
    match note with
    | .signalled _ wake => (wakes.signal wake (.timeout now)).2
    | _ => wakes) wakes

theorem wakes_of_fire (h : s.Lockstep n) (wakes : Wakes) (now : Tick) :
    (s.fire wakes now).2.2 = signalNotes now (s.notes (.fire wakes now)) wakes := by
  obtain ⟨s', hfire, -⟩ := fire_spec h wakes now
  have hwakes : (s.fire wakes now).2.2 = s.caps.signalEach now (s.due now) wakes := by rw [hfire]
  rw [hwakes, notes_fire h, due]
  clear hwakes hfire
  generalize s.pending = entries
  induction entries generalizing wakes with
  | nil => rfl
  | cons e entries ih =>
    rw [List.flatMap_cons, signalNotes, List.foldl_append]
    cases hdue : e.isDue now with
    | false =>
      rw [List.filter_cons_of_neg (by simp [hdue]), firedNotes, if_neg (by simp [hdue])]
      exact ih wakes
    | true =>
      rw [List.filter_cons_of_pos hdue, signalEach_cons, ih, firedNotes, if_pos hdue]
      cases hlookup : s.caps.lookup e.id.cptr with
      | none => simp [CapSpace.signalEach, signalNotes, wakeOf, hlookup]
      | some cap => simp [CapSpace.signalEach, signalNotes, wakeOf, hlookup]

/-- What an operation does to the timeouts that are pending. -/
structure Handles (s : Schedule) (op : Op) : Prop where
  /-- It leaves alone what it does not concern. -/
  alone : ∀ id, ¬ s.Concerns id op → s.LeavesAlone op id
  /-- A fire signals whatever is due, once, and then re-arms or removes it. -/
  fires : ∀ wakes now, op = .fire wakes now → ∀ e ∈ s.pending,
    tickReached now e.nextFire = true →
      ∃ wake, s.wakeOf e.id = some wake ∧
        about e.id (s.notes op) = [.signalled e.id wake, .fired e.id] ∧
        if e.periodic then e.rearm now ∈ (s.perform op).2.pending ∧
          (s.perform op).2.wakeOf e.id = some wake
        else ¬ (s.perform op).2.IsPending e.id
  /-- What is told to be signalled is all that changes in the notifications. -/
  signals : ∀ wakes now, op = .fire wakes now →
    (s.fire wakes now).2.2 = signalNotes now (s.notes op) wakes

theorem Lockstep.handles (h : s.Lockstep n) (op : Op)
    (hn : n + grants [(s.perform op).1] ≤ maxGranted) : s.Handles op where
  alone _ hid := leavesAlone h op hn hid
  fires wakes _ hop _ he hdue := hop ▸ fire_of_due h he hdue wakes
  signals wakes now hop := hop ▸ wakes_of_fire h wakes now

/-! ## Nothing is lost, duplicated or revived -/

/-- What a history tells of every name, and how its timeout stands at the end. -/
structure Accounted (s : Schedule) (told : List Note) : Prop where
  /-- A name that was not granted is not told of. -/
  unknown : ∀ id, (∀ periodic wake, .granted id periodic wake ∉ told) →
    ¬ s.IsPending id ∧ about id told = []
  /-- A one-shot is pending, or fired once, or was cancelled once. -/
  oneShot : ∀ id wake, .granted id false wake ∈ told →
    (s.IsPending id ∧ about id told = [.granted id false wake]) ∨
    (¬ s.IsPending id ∧
      about id told = [.granted id false wake, .signalled id wake, .fired id]) ∨
    (¬ s.IsPending id ∧ about id told = [.granted id false wake, .cancelled id])
  /-- A periodic timeout fires while it is pending, and then no more after its one cancellation. -/
  periodic : ∀ id wake, .granted id true wake ∈ told → ∃ count,
    (s.IsPending id ∧ about id told = .granted id true wake :: pulses id wake count) ∨
    (¬ s.IsPending id ∧
      about id told = .granted id true wake :: pulses id wake count ++ [.cancelled id])

theorem granted_notMem_pulses (id : TimeoutId) (count : Nat) (kind : Bool)
    (wake notified : NotificationId) : .granted id kind notified ∉ pulses id wake count := by
  intro hmem
  obtain ⟨pulse, hpulse, hmem⟩ := List.mem_flatten.1 hmem
  rw [List.eq_of_mem_replicate hpulse] at hmem
  simp at hmem

theorem Told.accounted {told : List Note} (h : s.Told n told) : s.Accounted told := by
  have hmem : ∀ {id periodic wake}, .granted id periodic wake ∈ told ↔
      .granted id periodic wake ∈ about id told := by
    intro id periodic wake
    rw [about, List.mem_filter]
    exact ⟨fun h => ⟨h, by simp [Note.id]⟩, And.left⟩
  refine ⟨fun id hid => ?_, fun id wake hid => ?_, fun id wake hid => ?_⟩
  · obtain ⟨standing, hstands, hlife⟩ := h.life id
    have hnot : ∀ periodic wake, .granted id periodic wake ∉ about id told := fun periodic wake hin =>
      hid periodic wake (hmem.2 hin)
    generalize about id told = life at hlife hnot ⊢
    cases hlife with
    | unknown => exact ⟨hstands, rfl⟩
    | awaited wake | expired wake | withdrawn wake => exact absurd List.mem_cons_self (hnot false wake)
    | beating wake | stopped wake => exact absurd List.mem_cons_self (hnot true wake)
  · obtain ⟨standing, hstands, hlife⟩ := h.life id
    have hin := hmem.1 hid
    generalize about id told = life at hlife hin ⊢
    cases hlife with
    | unknown => cases hin
    | awaited notified =>
      obtain rfl : wake = notified := by simpa using hin
      obtain ⟨⟨e, he, heq, -⟩, -⟩ := hstands
      exact Or.inl ⟨⟨e, he, heq⟩, rfl⟩
    | expired notified =>
      obtain rfl : wake = notified := by simpa using hin
      exact Or.inr (Or.inl ⟨hstands, rfl⟩)
    | withdrawn notified =>
      obtain rfl : wake = notified := by simpa using hin
      exact Or.inr (Or.inr ⟨hstands, rfl⟩)
    | beating notified count | stopped notified count =>
      simp [granted_notMem_pulses] at hin
  · obtain ⟨standing, hstands, hlife⟩ := h.life id
    have hin := hmem.1 hid
    generalize about id told = life at hlife hin ⊢
    cases hlife with
    | unknown => cases hin
    | awaited | expired | withdrawn => simp at hin
    | beating notified count =>
      obtain rfl : wake = notified := by simpa [granted_notMem_pulses] using hin
      obtain ⟨⟨e, he, heq, -⟩, -⟩ := hstands
      exact ⟨count, Or.inl ⟨⟨e, he, heq⟩, rfl⟩⟩
    | stopped notified count =>
      obtain rfl : wake = notified := by simpa [granted_notMem_pulses] using hin
      exact ⟨count, Or.inr ⟨hstands, rfl⟩⟩

/-- However a schedule is used, as long as names last no timeout is lost, duplicated or revived, and
each operation leaves alone whatever it does not concern. -/
theorem every_timeout_accounted (capacity : Nat) (hcap : 0 < capacity) :
    ∃ s₀, ofCapacity capacity = .ok s₀ ∧ ∀ ops, grants (s₀.run ops).1 ≤ maxGranted →
      Accounted (s₀.run ops).2 (s₀.history ops) ∧
      ∀ before op after, ops = before ++ op :: after → Handles (s₀.run before).2 op := by
  obtain ⟨s₀, hmade, hlock, -, hempty, -⟩ := ofCapacity_spec hcap
  refine ⟨s₀, hmade, fun ops hn => ⟨?_, fun before op after hops => ?_⟩⟩
  · have htold := (told_of_empty hempty).run hlock ops (by omega)
    exact htold.accounted
  · have hparts : grants (s₀.run before).1 + grants [((s₀.run before).2.perform op).1] ≤
        maxGranted := by
      rw [hops, run_append, run] at hn
      simp only [grants_append] at hn
      rw [grants_cons] at hn
      omega
    exact (run_lockstep hlock before (by omega)).1.handles op (by omega)

/-- A one-shot fires and makes room for a periodic timeout, which is then cancelled. -/
theorem every_timeout_accounted_refill :
    0 < 1 ∧ ∃ s₀, ofCapacity 1 = .ok s₀ ∧
      let ops : List Op := [.insert 0 7 false 5 3, .fire ⟨#[]⟩ 6, .insert 6 8 true 2 4,
        .fire ⟨#[]⟩ 9, .cancel ⟨2, by decide⟩, .cancel ⟨1, by decide⟩]
      grants (s₀.run ops).1 ≤ maxGranted ∧ Accounted (s₀.run ops).2 (s₀.history ops) := by
  obtain ⟨s₀, hmade, haccounted⟩ := every_timeout_accounted 1 (by decide)
  refine ⟨by decide, s₀, hmade, ?_⟩
  intro ops
  have hgrants : grants (s₀.run ops).1 ≤ maxGranted := by
    refine Nat.le_trans (grants_le_length _) ?_
    rw [length_run]
    decide
  exact ⟨hgrants, (haccounted ops hgrants).1⟩

end Schedule

end Osal
