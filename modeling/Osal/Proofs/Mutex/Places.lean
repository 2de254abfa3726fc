import Mathlib.Logic.Function.Basic
import Osal.Mutex

/-!
# Where the threads of a mutex stand

`Mutex.Orderly m holder place depth`: the owner, the count and the token of `m` are as the threads say
that stand at the points `place` and hold `depth` levels each. At most one thread, the `holder`, has
taken the token and not put it back; what it finds in the shared words depends on where it stands
(`Mutex.Sees`), and all others are outside, or at a point where they have changed nothing yet.
`orderly_of_step`: a step of any thread keeps that, whatever the others do in between.
-/

namespace Osal

namespace Mutex

/-- Whether a thread stands where it can without having the token. -/
def IsApart : Option Point → Prop
  | none | some .lockCheck | some .lockAwait | some .unlockCheck => True
  | _ => False

/-- What the thread that has the token finds in the shared words, if it holds a number of levels. -/
def Sees (m : Mutex) (me : Tid) (depth : Nat) : Option Point → Prop
  | none | some .lockCheck | some .unlockCheck | some .unlockLoad =>
    m.owner = some me ∧ m.held = depth ∧ 0 < depth ∧ depth ≤ m.maxDepth
  | some .lockAwait => False
  | some .lockOwn => m.owner = none ∧ m.held = 0 ∧ depth = 0
  | some .lockLoad => m.owner = some me ∧ m.held = depth ∧ depth ≤ m.maxDepth
  | some (.lockStore held) => m.owner = some me ∧ held = depth + 1 ∧ held ≤ m.maxDepth
  | some (.unlockStore held) => m.owner = some me ∧ depth = held + 1 ∧ depth ≤ m.maxDepth
  | some .unlockClear => m.owner = some me ∧ m.held = 0 ∧ depth = 1
  | some .unlockSignal => m.owner = none ∧ m.held = 0 ∧ depth = 1

/-- Who has the token after a step from a point. -/
def Point.holder (me : Tid) (holder : Option Tid) : Point → Option Tid
  | .lockAwait => some me
  | .unlockSignal => none
  | _ => holder

def depthAfter (depth : Nat) : Next Point Outcome → Nat
  | .done .locked => depth + 1
  | .done .unlocked => depth - 1
  | .done .overflow | .done .notHolder | .goto _ => depth

def place : Next Point Outcome → Option Point
  | .goto p => some p
  | .done _ => none

/-- The mutex is as the threads say. -/
structure Orderly (m : Mutex) (holder : Option Tid) (place : Tid → Option Point)
    (depth : Tid → Nat) : Prop where
  positive : 0 < m.maxDepth
  token : m.token = { pending := if holder = none then some () else none }
  free : holder = none → m.owner = none ∧ m.held = 0
  sees : ∀ t, holder = some t → m.Sees t (depth t) (place t)
  apart : ∀ t, holder ≠ some t → depth t = 0 ∧ IsApart (place t)

variable {m m' : Mutex} {holder : Option Tid} {place : Tid → Option Point} {depth : Tid → Nat}
  {me t : Tid} {p : Point} {turn : Next Point Outcome}

theorem orderly_withLimit (limit : Nat) :
    (withLimit limit).Orderly none (fun _ => none) fun _ => 0 :=
  { positive := Nat.le_max_right limit 1
    token := rfl
    free := fun _ => ⟨rfl, rfl⟩
    sees := fun _ h => by cases h
    apart := fun _ _ => ⟨rfl, trivial⟩ }

namespace Orderly

theorem isPending_iff (h : m.Orderly holder place depth) :
    m.token.isPending = true ↔ holder = none := by
  rw [h.token, Notification.isPending]
  cases holder <;> simp

theorem holder_of_owner (h : m.Orderly holder place depth) (howner : m.owner = some t) :
    holder = some t := by
  cases holder with
  | none =>
    rw [(h.free rfl).1] at howner
    cases howner
  | some u =>
    have hsees := h.sees u rfl
    suffices m.owner = none ∨ m.owner = some u by
      rcases this with hnone | hu
      · rw [hnone] at howner
        cases howner
      · rw [← hu, howner]
    cases hplace : place u with
    | none => rw [hplace] at hsees; exact Or.inr hsees.1
    | some q =>
      rw [hplace] at hsees
      cases q with
      | lockAwait => exact hsees.elim
      | lockOwn | unlockSignal => exact Or.inl hsees.1
      | lockCheck | lockLoad | lockStore _ | unlockCheck | unlockLoad | unlockStore _ |
        unlockClear => exact Or.inr hsees.1

theorem sees_of_place (h : m.Orderly holder place depth) (hp : place me = some p)
    (hpast : ¬ IsApart (some p)) : holder = some me ∧ m.Sees me (depth me) (some p) := by
  have hholder : holder = some me := by
    by_contra hme
    exact hpast (hp ▸ (h.apart me hme).2)
  exact ⟨hholder, hp ▸ h.sees me hholder⟩

theorem not_holder (h : m.Orderly holder place depth) (hp : place me = some p)
    (howner : m.owner ≠ some me) (hcheck : p = .lockCheck ∨ p = .unlockCheck) :
    holder ≠ some me := by
  intro hholder
  have hsees := h.sees me hholder
  rw [hp] at hsees
  rcases hcheck with rfl | rfl
  · exact howner hsees.1
  · exact howner hsees.1

theorem holderMoves (h : m.Orderly (some me) place depth) {q : Option Point} {d : Nat}
    (hmax : m'.maxDepth = m.maxDepth) (htoken : m'.token = m.token) (hsees : m'.Sees me d q) :
    m'.Orderly (some me) (Function.update place me q) (Function.update depth me d) := by
  refine ⟨hmax ▸ h.positive, htoken.trans h.token, fun hnone => ?_, fun t ht => ?_, fun t ht => ?_⟩
  · cases hnone
  · obtain rfl := Option.some.inj ht
    rwa [Function.update_self, Function.update_self]
  · have hne : t ≠ me := fun heq => ht (heq ▸ rfl)
    rw [Function.update_of_ne hne, Function.update_of_ne hne]
    exact h.apart t ht

theorem otherMoves (h : m.Orderly holder place depth) (hme : holder ≠ some me) {q : Option Point}
    (hq : IsApart q) :
    m.Orderly holder (Function.update place me q) (Function.update depth me (depth me)) := by
  rw [Function.update_eq_self]
  refine ⟨h.positive, h.token, h.free, fun t ht => ?_, fun t ht => ?_⟩
  · have hne : t ≠ me := fun heq => hme (heq ▸ ht)
    rw [Function.update_of_ne hne]
    exact h.sees t ht
  · by_cases heq : t = me
    · subst heq
      rw [Function.update_self]
      exact ⟨(h.apart t ht).1, hq⟩
    · rw [Function.update_of_ne heq]
      exact h.apart t ht

theorem enter (h : m.Orderly holder place depth) (hme : place me = none)
    (hp : p = .lockCheck ∨ p = .unlockCheck) :
    m.Orderly holder (Function.update place me (some p)) depth := by
  by_cases hholder : holder = some me
  · subst hholder
    have hsees := h.sees me rfl
    rw [hme] at hsees
    have hmoved := h.holderMoves (q := some p) (d := depth me) rfl rfl (by
      rcases hp with rfl | rfl
      · exact hsees
      · exact hsees)
    rwa [Function.update_eq_self] at hmoved
  · have hmoved := h.otherMoves hholder (q := some p) (by rcases hp with rfl | rfl <;> trivial)
    rwa [Function.update_eq_self] at hmoved

end Orderly

/-! ## Steps -/

/-- The steps of a thread, one rule for each way to go on from a point. -/
inductive Steps (me : Tid) (m : Mutex) : Point → Mutex → Next Point Outcome → Prop where
  | isOwner (howner : m.owner = some me) : Steps me m .lockCheck m (.goto .lockLoad)
  | notOwner (howner : m.owner ≠ some me) : Steps me m .lockCheck m (.goto .lockAwait)
  | receive (htoken : m.token.pending = some ()) :
    Steps me m .lockAwait { m with token := { m.token with pending := none } } (.goto .lockOwn)
  | own : Steps me m .lockOwn { m with owner := some me } (.goto .lockLoad)
  | full (hfull : m.maxDepth ≤ m.held) : Steps me m .lockLoad m (.done .overflow)
  | room (hroom : m.held < m.maxDepth) :
    Steps me m .lockLoad m (.goto (.lockStore (m.held + 1)))
  | gain (held : Nat) : Steps me m (.lockStore held) { m with held } (.done .locked)
  | isHolder (howner : m.owner = some me) : Steps me m .unlockCheck m (.goto .unlockLoad)
  | notHolder (howner : m.owner ≠ some me) : Steps me m .unlockCheck m (.done .notHolder)
  | count : Steps me m .unlockLoad m (.goto (.unlockStore (m.held - 1)))
  | release (held : Nat) (hheld : 0 < held) :
    Steps me m (.unlockStore held) { m with held } (.done .unlocked)
  | last : Steps me m (.unlockStore 0) { m with held := 0 } (.goto .unlockClear)
  | disown : Steps me m .unlockClear { m with owner := none } (.goto .unlockSignal)
  | putBack : Steps me m .unlockSignal { m with token := (m.token.signal ()).2 } (.done .unlocked)

theorem steps_of_step (hstep : step me m p = some (m', turn)) : Steps me m p m' turn := by
  cases p with
  | lockCheck =>
    obtain ⟨rfl, rfl⟩ := Prod.mk.inj (Option.some.inj hstep)
    split
    · exact .isOwner ‹_›
    · exact .notOwner ‹_›
  | lockAwait =>
    have hpoll : m.token.poll = (m.token.pending, { m.token with pending := none }) := rfl
    rw [step, hpoll] at hstep
    cases htoken : m.token.pending with
    | none => simp [htoken] at hstep
    | some token =>
      simp only [htoken] at hstep
      obtain ⟨rfl, rfl⟩ := Prod.mk.inj (Option.some.inj hstep)
      exact .receive htoken
  | lockOwn =>
    obtain ⟨rfl, rfl⟩ := Prod.mk.inj (Option.some.inj hstep)
    exact .own
  | lockLoad =>
    simp only [step] at hstep
    split at hstep
    · obtain ⟨rfl, rfl⟩ := Prod.mk.inj (Option.some.inj hstep)
      exact .full ‹_›
    · obtain ⟨rfl, rfl⟩ := Prod.mk.inj (Option.some.inj hstep)
      exact .room (Nat.lt_of_not_le ‹_›)
  | lockStore held =>
    obtain ⟨rfl, rfl⟩ := Prod.mk.inj (Option.some.inj hstep)
    exact .gain held
  | unlockCheck =>
    simp only [step] at hstep
    split at hstep
    · obtain ⟨rfl, rfl⟩ := Prod.mk.inj (Option.some.inj hstep)
      exact .isHolder ‹_›
    · obtain ⟨rfl, rfl⟩ := Prod.mk.inj (Option.some.inj hstep)
      exact .notHolder ‹_›
  | unlockLoad =>
    obtain ⟨rfl, rfl⟩ := Prod.mk.inj (Option.some.inj hstep)
    exact .count
  | unlockStore held =>
    obtain ⟨rfl, rfl⟩ := Prod.mk.inj (Option.some.inj hstep)
    cases held with
    | zero => exact .last
    | succ held => exact .release (held + 1) (Nat.succ_pos held)
  | unlockClear =>
    obtain ⟨rfl, rfl⟩ := Prod.mk.inj (Option.some.inj hstep)
    exact .disown
  | unlockSignal =>
    obtain ⟨rfl, rfl⟩ := Prod.mk.inj (Option.some.inj hstep)
    exact .putBack

theorem Orderly.holder_eq_none (h : m.Orderly holder place depth)
    (htoken : m.token.pending = some ()) : holder = none :=
  h.isPending_iff.1 (by rw [Notification.isPending, htoken]; rfl)

theorem Orderly.receive (h : m.Orderly holder place depth) (htoken : m.token.pending = some ())
    (me : Tid) :
    Orderly { m with token := { m.token with pending := none } } (some me)
      (Function.update place me (some .lockOwn)) depth := by
  obtain rfl := h.holder_eq_none htoken
  obtain ⟨howner, hheld⟩ := h.free rfl
  refine ⟨h.positive, ?_, fun hnone => ?_, fun t ht => ?_, fun t ht => ?_⟩
  · rw [h.token]
    rfl
  · cases hnone
  · obtain rfl := Option.some.inj ht
    rw [Function.update_self]
    exact ⟨howner, hheld, (h.apart me fun hme => by cases hme).1⟩
  · have hne : t ≠ me := fun heq => ht (heq ▸ rfl)
    rw [Function.update_of_ne hne]
    exact h.apart t fun hnone => by cases hnone

/-- The thread that has the token puts it back, where there is a place for it. -/
theorem Orderly.putBack (h : m.Orderly (some me) place depth) (hp : place me = some .unlockSignal) :
    m.token.signal () = (true, { pending := some () }) ∧
      Orderly { m with token := (m.token.signal ()).2 } none (Function.update place me none)
        (Function.update depth me 0) := by
  have hsignal : m.token.signal () = (true, { pending := some () }) := by rw [h.token]; rfl
  have hsees := h.sees me rfl
  rw [hp] at hsees
  refine ⟨hsignal, h.positive, ?_, fun _ => ⟨hsees.1, hsees.2.1⟩, fun t ht => ?_, fun t ht => ?_⟩
  · rw [hsignal]
    rfl
  · cases ht
  · by_cases hne : t = me
    · subst hne
      rw [Function.update_self, Function.update_self]
      exact ⟨rfl, trivial⟩
    · rw [Function.update_of_ne hne, Function.update_of_ne hne]
      exact h.apart t fun heq => hne (Option.some.inj heq).symm

theorem orderly_of_step (h : m.Orderly holder place depth) (hp : place me = some p)
    (hstep : Steps me m p m' turn) :
    m'.Orderly (p.holder me holder) (Function.update place me (Mutex.place turn))
      (Function.update depth me (depthAfter (depth me) turn)) := by
  cases hstep with
  | isOwner howner =>
    obtain rfl := h.holder_of_owner howner
    have hsees := h.sees me rfl
    rw [hp] at hsees
    exact h.holderMoves rfl rfl ⟨howner, hsees.2.1, hsees.2.2.2⟩
  | notOwner howner => exact h.otherMoves (h.not_holder hp howner (Or.inl rfl)) trivial
  | receive htoken =>
    simp only [depthAfter, Function.update_eq_self]
    exact h.receive htoken me
  | own =>
    obtain ⟨rfl, -, hheld, hdepth⟩ := h.sees_of_place hp id
    exact h.holderMoves rfl rfl ⟨rfl, hheld.trans hdepth.symm, hdepth ▸ Nat.zero_le _⟩
  | full hfull =>
    obtain ⟨rfl, howner, hheld, hle⟩ := h.sees_of_place hp id
    have hpos := h.positive
    exact h.holderMoves rfl rfl ⟨howner, hheld, by simp only [depthAfter]; omega, hle⟩
  | room hroom =>
    obtain ⟨rfl, howner, hheld, -⟩ := h.sees_of_place hp id
    exact h.holderMoves rfl rfl ⟨howner, congrArg (· + 1) hheld, hroom⟩
  | gain held =>
    obtain ⟨rfl, howner, hheld, hle⟩ := h.sees_of_place hp id
    exact h.holderMoves rfl rfl ⟨howner, hheld, Nat.succ_pos _, hheld ▸ hle⟩
  | isHolder howner =>
    obtain rfl := h.holder_of_owner howner
    have hsees := h.sees me rfl
    rw [hp] at hsees
    exact h.holderMoves rfl rfl hsees
  | notHolder howner => exact h.otherMoves (h.not_holder hp howner (Or.inr rfl)) trivial
  | count =>
    obtain ⟨rfl, howner, hheld, hpos, hle⟩ := h.sees_of_place hp id
    exact h.holderMoves rfl rfl ⟨howner, by simp only [depthAfter]; omega, hle⟩
  | release held hpos =>
    obtain ⟨rfl, howner, hdepth, hle⟩ := h.sees_of_place hp id
    refine h.holderMoves rfl rfl ?_
    simp only [Mutex.place, Sees, depthAfter]
    exact ⟨howner, by omega, by omega, by omega⟩
  | last =>
    obtain ⟨rfl, howner, hdepth, -⟩ := h.sees_of_place hp id
    exact h.holderMoves rfl rfl ⟨howner, rfl, hdepth⟩
  | disown =>
    obtain ⟨rfl, -, hheld, hdepth⟩ := h.sees_of_place hp id
    exact h.holderMoves rfl rfl ⟨rfl, hheld, hdepth⟩
  | putBack =>
    obtain ⟨rfl, -, -, hdepth⟩ := h.sees_of_place hp id
    have hput := (h.putBack hp).2
    simp only [depthAfter, hdepth]
    exact hput

theorem depth_pos_of_unlocked (h : m.Orderly holder place depth) (hp : place me = some p)
    (hstep : Steps me m p m' (.done .unlocked)) : 0 < depth me := by
  cases hstep with
  | release held _ => exact (h.sees_of_place hp id).2.2.1 ▸ Nat.succ_pos held
  | putBack => exact (h.sees_of_place hp id).2.2.2 ▸ Nat.one_pos

end Mutex

end Osal
