import Osal.Proofs.Clock.Codec

/-!
# Which messages are requests

A message may have any label, words that nobody reads, and a capability that nobody asked for.
`request_codec` says which messages the clock accepts and what it leaves of them: what a client sends
comes back as it was sent, a refused message stays whole, and the words of an accepted one that are not
read make no difference.
-/

namespace Osal

namespace Message

variable {κ : Type} {m : Message κ}

/-- The messages that are requests, by their labels, words and capabilities. -/
def IsRequest (m : Message κ) : Prop :=
  m.label = 0 ∨
  (m.label = 1 ∧ m.cap.isSome = true ∧ ∃ flag period rest, m.words = flag :: period :: rest ∧
    (flag = 0 ∨ flag = 1) ∧ period.toNat ≤ 4294967295 ∧ ¬ (flag = 1 ∧ period = 0)) ∨
  (m.label = 2 ∧ ∃ id rest, m.words = id :: rest ∧ 1 ≤ id.toNat ∧ id.toNat ≤ 4294967295)

theorem word?_zero_eq_some_iff {w : Word} : m.word? 0 = some w ↔ ∃ rest, m.words = w :: rest := by
  rw [word?]
  cases m.words with
  | nil => simp
  | cons head rest => simp [eq_comm]

theorem word?_two_iff {w w' : Word} :
    m.word? 0 = some w ∧ m.word? 1 = some w' ↔ ∃ rest, m.words = w :: w' :: rest := by
  rw [word?, word?]
  rcases m.words with - | ⟨head, - | ⟨next, rest⟩⟩
  · simp
  · simp
  · simp

end Message

/-! ## Words that fit -/

theorem eq_toUInt64_iff {w : Word} {n : UInt32} : w = n.toUInt64 ↔ w.toNat = n.toNat := by
  rw [← UInt64.toNat_inj, UInt32.toNat_toUInt64]

theorem exists_toUInt64_iff {w : Word} : (∃ n : UInt32, w = n.toUInt64) ↔ w.toNat ≤ 4294967295 := by
  constructor
  · rintro ⟨n, rfl⟩
    have hlt := n.toNat_lt
    rw [UInt32.toNat_toUInt64]
    omega
  · intro hle
    refine ⟨w.toUInt32, eq_toUInt64_iff.2 ?_⟩
    rw [UInt64.toNat_toUInt32]
    omega

@[simp] theorem TimeoutId.toNat_toWord (id : TimeoutId) : id.toWord.toNat = id.cptr.toNat :=
  UInt32.toNat_toUInt64 id.cptr

theorem TimeoutId.exists_toWord_iff {w : Word} :
    (∃ id : TimeoutId, w = id.toWord) ↔ 1 ≤ w.toNat ∧ w.toNat ≤ 4294967295 := by
  constructor
  · rintro ⟨id, rfl⟩
    have hpos : id.cptr.toNat ≠ 0 := fun hzero => id.ne_null (UInt32.toNat_inj.1 hzero)
    exact ⟨by rw [id.toNat_toWord]; omega, exists_toUInt64_iff.1 ⟨id.cptr, rfl⟩⟩
  · rintro ⟨hpos, hle⟩
    obtain ⟨n, rfl⟩ := exists_toUInt64_iff.2 hle
    refine ⟨⟨n, ?_⟩, rfl⟩
    rintro rfl
    exact absurd hpos (by decide)

namespace Request

variable {κ : Type} {m : Message κ}

/-! ## Acceptance -/

theorem exists_isIn_iff : (∃ request : Request κ, request.IsIn m) ↔ m.IsRequest := by
  constructor
  · rintro ⟨request, h⟩
    cases request with
    | getTime => exact .inl h
    | setTimeout periodic period wake =>
      obtain ⟨hlabel, hflag, hperiod, hzero, hcap⟩ := h
      obtain ⟨rest, hwords⟩ := Message.word?_two_iff.1 ⟨hflag, hperiod⟩
      refine .inr (.inl ⟨hlabel, by rw [hcap]; rfl, _, _, rest, hwords, ?_,
        exists_toUInt64_iff.1 ⟨period, rfl⟩, ?_⟩)
      · cases periodic
        · exact .inl rfl
        · exact .inr rfl
      · rintro ⟨hone, hnone⟩
        refine hzero ⟨?_, ?_⟩
        · cases periodic
          · cases hone
          · rfl
        · exact UInt32.toUInt64_inj.1 hnone
    | cancelTimeout id =>
      obtain ⟨hlabel, hword⟩ := h
      obtain ⟨rest, hwords⟩ := Message.word?_zero_eq_some_iff.1 hword
      obtain ⟨hpos, hle⟩ := TimeoutId.exists_toWord_iff.1 ⟨id, rfl⟩
      exact .inr (.inr ⟨hlabel, _, rest, hwords, hpos, hle⟩)
  · rintro (hlabel | ⟨hlabel, hcap, flag, period, rest, hwords, hflag, hle, hzero⟩ |
      ⟨hlabel, id, rest, hwords, hpos, hle⟩)
    · exact ⟨.getTime, hlabel⟩
    · obtain ⟨wake, hwake⟩ := Option.isSome_iff_exists.1 hcap
      obtain ⟨ms, rfl⟩ := exists_toUInt64_iff.2 hle
      obtain ⟨hfirst, hsecond⟩ := Message.word?_two_iff.2 ⟨rest, hwords⟩
      refine ⟨.setTimeout (flag == 1) ms wake, hlabel, ?_, hsecond, ?_, hwake⟩
      · rcases hflag with rfl | rfl
        · exact hfirst
        · exact hfirst
      · rintro ⟨hone, rfl⟩
        exact hzero ⟨eq_of_beq hone, rfl⟩
    · obtain ⟨id, rfl⟩ := TimeoutId.exists_toWord_iff.2 ⟨hpos, hle⟩
      exact ⟨.cancelTimeout id, hlabel, Message.word?_zero_eq_some_iff.2 ⟨rest, hwords⟩⟩

theorem label_of_isIn {request : Request κ} (h : request.IsIn m) :
    m.label = request.opcode.toWord := by
  cases request with
  | getTime => exact h
  | setTimeout periodic period wake => exact h.1
  | cancelTimeout id => exact h.1

/-! ## The codec -/

/-- What decoding does to messages, and to those that requests are sent as. -/
structure Codec (κ : Type) : Prop where
  /-- A request that is sent is decoded as it was, and its wake capability is taken out. -/
  returns : ∀ request : Request κ, ¬ request.IsRefused →
    (ofMessage request.toMessage).1 = .ok request ∧ (ofMessage request.toMessage).2.cap = none
  accepts_iff : ∀ m : Message κ, (∃ request, (ofMessage m).1 = .ok request) ↔ m.IsRequest
  /-- The request is what the label, the words and the capability say. -/
  reads_iff : ∀ (m : Message κ) request, (ofMessage m).1 = .ok request ↔ request.IsIn m
  refused : ∀ (m : Message κ) fault, (ofMessage m).1 = .error fault → (ofMessage m).2 = m
  takes : ∀ (m : Message κ) periodic period wake,
    (ofMessage m).1 = .ok (.setTimeout periodic period wake) →
      m.cap = some wake ∧ (ofMessage m).2 = { m with cap := none }
  leaves : ∀ (m : Message κ) request, (ofMessage m).1 = .ok request →
    request.opcode ≠ .setTimeout → (ofMessage m).2 = m
  /-- Sent on, an accepted request is accepted as the same one. -/
  stable : ∀ (m : Message κ) request, (ofMessage m).1 = .ok request →
    (ofMessage request.toMessage).1 = .ok request

theorem not_isRefused_of_isIn {request : Request κ} (h : request.IsIn m) : ¬ request.IsRefused := by
  cases request with
  | getTime | cancelTimeout _ => exact not_false
  | setTimeout periodic period wake => exact h.2.2.2.1

theorem ofMessage_of_ok {request : Request κ} (h : decode m = .ok request) :
    ofMessage m = (.ok request, remainder m (.ok request)) := by
  rw [ofMessage, h]

/-- The requests that come back as they were sent, and the messages that are requests. -/
theorem request_codec (κ : Type) : Codec κ where
  returns request h := by
    rw [ofMessage_of_ok (decode_toMessage h)]
    cases request <;> exact ⟨rfl, rfl⟩
  accepts_iff m := by
    rw [← exists_isIn_iff]
    exact exists_congr fun request => decode_eq_ok_iff
  reads_iff m request := decode_eq_ok_iff
  refused m fault h := by
    have hdecode : decode m = .error fault := h
    rw [ofMessage, hdecode]
    rfl
  takes m periodic period wake h := by
    rw [ofMessage_of_ok h]
    exact ⟨(decode_eq_ok_iff.1 h).2.2.2.2, rfl⟩
  leaves m request h hopcode := by
    rw [ofMessage_of_ok h]
    cases request with
    | getTime | cancelTimeout id => rfl
    | setTimeout periodic period wake => exact absurd rfl hopcode
  stable m request h := decode_toMessage (not_isRefused_of_isIn (decode_eq_ok_iff.1 h))

end Request

end Osal
