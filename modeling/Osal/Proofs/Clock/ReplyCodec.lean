import Osal.Proofs.Clock.RequestCodec

/-!
# What clients read in any reply

The clock answers every message with a reply to what the message asks for, and a client that asked reads
that reply. What a client reads in other messages depends on the label, on the operation it called, and
on the words that this operation looks at. `reply_codec` goes through both: the replies that the clock
gives, and all messages that might come in place of one.
-/

namespace Osal

/-! ## What the clock answers -/

namespace ClockState

theorem answers_handle (s : ClockState) (badge : Badge) (request : ClockRequest) :
    (s.handle badge request).1.Answers request.opcode := by
  have hfailed : Status.failed ≠ .ok := by decide
  cases request with
  | getTime => trivial
  | setTimeout periodic period wake =>
    rw [handle]
    split
    · trivial
    · exact hfailed
  | cancelTimeout id =>
    rcases s.reply_cancel badge id with h | h <;> rw [h]
    · trivial
    · exact hfailed

theorem ofMessage_serve (s : ClockState) (badge : Badge) (m : ClockMessage) :
    Reply.ofMessage m.label ((s.serve badge m).1.toMessage : ClockMessage) =
      .ok (s.serve badge m).1 := by
  have hbad : Status.badRequest ≠ .ok := by decide
  rw [serve]
  cases hdecode : (Request.ofMessage m).1 with
  | error fault => exact Reply.ofMessage_of_failed hbad rfl m.label
  | ok request =>
    rw [Request.label_of_isIn (Request.decode_eq_ok_iff.1 hdecode)]
    exact Reply.ofMessage_toMessage (s.answers_handle badge request)

end ClockState

/-! ## What a client reads -/

namespace ClockClient

variable {m : ClockMessage} {opcode : Opcode} {e : Error}

theorem replyOf_eq_ok_iff {reply : Reply} :
    replyOf opcode (.ok m) = .ok reply ↔ reply.Answers opcode ∧ reply.IsIn m := by
  rw [← Reply.ofMessage_eq_ok_iff, replyOf]
  cases Reply.ofMessage opcode.toWord m with
  | ok read => simp
  | error fault => simp

theorem replyOf_eq_error (h : replyOf opcode (.ok m) = .error e) : ∃ text, e = .protocol text := by
  rw [replyOf] at h
  cases hread : Reply.ofMessage opcode.toWord m with
  | ok reply =>
    rw [hread] at h
    cases h
  | error fault =>
    rw [hread] at h
    cases h
    exact ⟨fault.message, rfl⟩

theorem timeOf_eq_ok_iff {tick : Tick} :
    timeOf (.ok m) = .ok tick ↔ (Reply.time tick).IsIn m := by
  rw [timeOf, bind_eq_ok_iff]
  simp only [replyOf_eq_ok_iff]
  constructor
  · rintro ⟨reply, ⟨hanswers, hin⟩, h⟩
    split at h
    · cases h
      exact hin
    · cases h
  · exact fun hin => ⟨.time tick, ⟨trivial, hin⟩, rfl⟩

theorem scheduledOf_eq_ok_iff {timeout : ScheduledTimeout} :
    scheduledOf (.ok m) = .ok timeout ↔ (Reply.scheduled timeout.id timeout.insertedAt).IsIn m := by
  rw [scheduledOf, bind_eq_ok_iff]
  simp only [replyOf_eq_ok_iff]
  constructor
  · rintro ⟨reply, ⟨hanswers, hin⟩, h⟩
    split at h
    · cases h
      exact hin
    · cases h
    · cases h
  · exact fun hin => ⟨.scheduled timeout.id timeout.insertedAt, ⟨trivial, hin⟩, rfl⟩

theorem cancelledOf_eq_ok_iff {id : TimeoutId} : cancelledOf id (.ok m) = .ok () ↔ m.label = 0 := by
  rw [cancelledOf, bind_eq_ok_iff]
  simp only [replyOf_eq_ok_iff]
  constructor
  · rintro ⟨reply, ⟨hanswers, hin⟩, h⟩
    split at h
    · exact hin
    · cases h
    · cases h
  · exact fun hin => ⟨.cancelled, ⟨trivial, hin⟩, rfl⟩

theorem replyOf_of_label_one (opcode : Opcode) (h : m.label = 1) :
    replyOf opcode (.ok m) = .ok (.failed .failed) :=
  replyOf_eq_ok_iff.2 ⟨by cases opcode <;> exact nofun, h⟩

theorem timeOf_cases (m : ClockMessage) : (∃ tick, timeOf (.ok m) = .ok tick) ∨
    ∃ text, timeOf (.ok m) = .error (.protocol text) := by
  rw [timeOf]
  cases hreply : replyOf .getTime (.ok m) with
  | error e =>
    obtain ⟨text, rfl⟩ := replyOf_eq_error hreply
    exact .inr ⟨text, rfl⟩
  | ok reply =>
    cases reply with
    | time tick => exact .inl ⟨tick, rfl⟩
    | scheduled | cancelled | failed => exact .inr ⟨_, rfl⟩

theorem scheduledOf_cases (m : ClockMessage) : (∃ timeout, scheduledOf (.ok m) = .ok timeout) ∨
    (m.label = 1 ∧ scheduledOf (.ok m) = .error .schedulerFull) ∨
    ∃ text, scheduledOf (.ok m) = .error (.protocol text) := by
  rw [scheduledOf]
  cases hreply : replyOf .setTimeout (.ok m) with
  | error e =>
    obtain ⟨text, rfl⟩ := replyOf_eq_error hreply
    exact .inr (.inr ⟨text, rfl⟩)
  | ok reply =>
    have hlabel := (replyOf_eq_ok_iff.1 hreply).2
    cases reply with
    | scheduled id insertedAt => exact .inl ⟨⟨id, insertedAt⟩, rfl⟩
    | time | cancelled => exact .inr (.inr ⟨_, rfl⟩)
    | failed status =>
      cases status with
      | failed => exact .inr (.inl ⟨hlabel, rfl⟩)
      | ok | badRequest => exact .inr (.inr ⟨_, rfl⟩)

theorem cancelledOf_cases (id : TimeoutId) (m : ClockMessage) : cancelledOf id (.ok m) = .ok () ∨
    (m.label = 1 ∧ cancelledOf id (.ok m) = .error (.timeoutNotFound id)) ∨
    ∃ text, cancelledOf id (.ok m) = .error (.protocol text) := by
  rw [cancelledOf]
  cases hreply : replyOf .cancelTimeout (.ok m) with
  | error e =>
    obtain ⟨text, rfl⟩ := replyOf_eq_error hreply
    exact .inr (.inr ⟨text, rfl⟩)
  | ok reply =>
    have hlabel := (replyOf_eq_ok_iff.1 hreply).2
    cases reply with
    | cancelled => exact .inl rfl
    | time | scheduled => exact .inr (.inr ⟨_, rfl⟩)
    | failed status =>
      cases status with
      | failed => exact .inr (.inl ⟨hlabel, rfl⟩)
      | ok | badRequest => exact .inr (.inr ⟨_, rfl⟩)

theorem scheduledOf_eq_full_iff : scheduledOf (.ok m) = .error .schedulerFull ↔ m.label = 1 := by
  constructor
  · intro hfull
    rcases scheduledOf_cases m with ⟨timeout, h⟩ | ⟨hlabel, -⟩ | ⟨text, h⟩
    · cases hfull.symm.trans h
    · exact hlabel
    · cases hfull.symm.trans h
  · intro hlabel
    rw [scheduledOf, replyOf_of_label_one _ hlabel]
    rfl

theorem cancelledOf_eq_notFound_iff {id : TimeoutId} :
    cancelledOf id (.ok m) = .error (.timeoutNotFound id) ↔ m.label = 1 := by
  constructor
  · intro hgone
    rcases cancelledOf_cases id m with h | ⟨hlabel, -⟩ | ⟨text, h⟩
    · cases hgone.symm.trans h
    · exact hlabel
    · cases hgone.symm.trans h
  · intro hlabel
    rw [cancelledOf, replyOf_of_label_one _ hlabel]
    rfl

/-! ### In terms of words -/

theorem timeOf_eq_ok_iff_words {tick : Tick} : timeOf (.ok m) = .ok tick ↔
    m.label = 0 ∧ ∃ w rest, m.words = w :: rest ∧ w.toNat = tick.toNat := by
  rw [timeOf_eq_ok_iff]
  refine and_congr_right fun _ => ?_
  simp only [Message.word?_zero_eq_some_iff, ← eq_toUInt64_iff]
  constructor
  · rintro ⟨rest, hwords⟩
    exact ⟨_, rest, hwords, rfl⟩
  · rintro ⟨w, rest, hwords, rfl⟩
    exact ⟨rest, hwords⟩

theorem scheduledOf_eq_ok_iff_words {timeout : ScheduledTimeout} : scheduledOf (.ok m) = .ok timeout ↔
    m.label = 0 ∧ ∃ w w' rest, m.words = w :: w' :: rest ∧
      w.toNat = timeout.id.cptr.toNat ∧ w'.toNat = timeout.insertedAt.toNat := by
  rw [scheduledOf_eq_ok_iff]
  refine and_congr_right fun _ => ?_
  simp only [Message.word?_two_iff, ← eq_toUInt64_iff]
  constructor
  · rintro ⟨rest, hwords⟩
    exact ⟨_, _, rest, hwords, rfl, rfl⟩
  · rintro ⟨w, w', rest, hwords, rfl, rfl⟩
    exact ⟨rest, hwords⟩

theorem exists_timeOf_eq_ok_iff : (∃ tick, timeOf (.ok m) = .ok tick) ↔
    m.label = 0 ∧ ∃ w rest, m.words = w :: rest ∧ w.toNat ≤ 4294967295 := by
  constructor
  · rintro ⟨tick, h⟩
    obtain ⟨hlabel, w, rest, hwords, hw⟩ := timeOf_eq_ok_iff_words.1 h
    exact ⟨hlabel, w, rest, hwords, exists_toUInt64_iff.1 ⟨tick, eq_toUInt64_iff.2 hw⟩⟩
  · rintro ⟨hlabel, w, rest, hwords, hle⟩
    obtain ⟨tick, hw⟩ := exists_toUInt64_iff.2 hle
    exact ⟨tick, timeOf_eq_ok_iff_words.2 ⟨hlabel, w, rest, hwords, eq_toUInt64_iff.1 hw⟩⟩

theorem exists_scheduledOf_eq_ok_iff : (∃ timeout, scheduledOf (.ok m) = .ok timeout) ↔
    m.label = 0 ∧ ∃ w w' rest, m.words = w :: w' :: rest ∧
      1 ≤ w.toNat ∧ w.toNat ≤ 4294967295 ∧ w'.toNat ≤ 4294967295 := by
  constructor
  · rintro ⟨timeout, h⟩
    obtain ⟨hlabel, w, w', rest, hwords, hw, hw'⟩ := scheduledOf_eq_ok_iff_words.1 h
    obtain ⟨hpos, hle⟩ := TimeoutId.exists_toWord_iff.1 ⟨timeout.id, eq_toUInt64_iff.2 hw⟩
    exact ⟨hlabel, w, w', rest, hwords, hpos, hle,
      exists_toUInt64_iff.1 ⟨timeout.insertedAt, eq_toUInt64_iff.2 hw'⟩⟩
  · rintro ⟨hlabel, w, w', rest, hwords, hpos, hle, hle'⟩
    obtain ⟨id, hw⟩ := TimeoutId.exists_toWord_iff.2 ⟨hpos, hle⟩
    obtain ⟨tick, hw'⟩ := exists_toUInt64_iff.2 hle'
    exact ⟨⟨id, tick⟩, scheduledOf_eq_ok_iff_words.2
      ⟨hlabel, w, w', rest, hwords, eq_toUInt64_iff.1 hw, eq_toUInt64_iff.1 hw'⟩⟩

end ClockClient

/-! ## The codec -/

/-- What becomes of the replies of the clock on the wire, and what a client reads in any message that it
gets as a reply. -/
structure ReplyCodec : Prop where
  /-- A reply to any message is read as it was given. -/
  returns : ∀ (s : ClockState) badge (m : ClockMessage),
    Reply.ofMessage m.label ((s.serve badge m).1.toMessage : ClockMessage) = .ok (s.serve badge m).1
  /-- A failure is read as one, whatever was asked for. -/
  failed : ∀ (opcode : Word) status, status ≠ .ok →
    Reply.ofMessage opcode ((Reply.failed status).toMessage : ClockMessage) = .ok (.failed status)
  time_iff : ∀ m tick, ClockClient.timeOf (.ok m) = .ok tick ↔
    m.label = 0 ∧ ∃ w rest, m.words = w :: rest ∧ w.toNat = tick.toNat
  time_ok_iff : ∀ m, (∃ tick, ClockClient.timeOf (.ok m) = .ok tick) ↔
    m.label = 0 ∧ ∃ w rest, m.words = w :: rest ∧ w.toNat ≤ 4294967295
  time_else : ∀ m, (∃ tick, ClockClient.timeOf (.ok m) = .ok tick) ∨
    ∃ text, ClockClient.timeOf (.ok m) = .error (.protocol text)
  scheduled_iff : ∀ m timeout, ClockClient.scheduledOf (.ok m) = .ok timeout ↔
    m.label = 0 ∧ ∃ w w' rest, m.words = w :: w' :: rest ∧
      w.toNat = timeout.id.cptr.toNat ∧ w'.toNat = timeout.insertedAt.toNat
  scheduled_ok_iff : ∀ m, (∃ timeout, ClockClient.scheduledOf (.ok m) = .ok timeout) ↔
    m.label = 0 ∧ ∃ w w' rest, m.words = w :: w' :: rest ∧
      1 ≤ w.toNat ∧ w.toNat ≤ 4294967295 ∧ w'.toNat ≤ 4294967295
  full_iff : ∀ m, ClockClient.scheduledOf (.ok m) = .error .schedulerFull ↔ m.label = 1
  scheduled_else : ∀ m, (∃ timeout, ClockClient.scheduledOf (.ok m) = .ok timeout) ∨
    (m.label = 1 ∧ ClockClient.scheduledOf (.ok m) = .error .schedulerFull) ∨
    ∃ text, ClockClient.scheduledOf (.ok m) = .error (.protocol text)
  cancelled_iff : ∀ m id, ClockClient.cancelledOf id (.ok m) = .ok () ↔ m.label = 0
  notFound_iff : ∀ m id,
    ClockClient.cancelledOf id (.ok m) = .error (.timeoutNotFound id) ↔ m.label = 1
  cancelled_else : ∀ m id, ClockClient.cancelledOf id (.ok m) = .ok () ∨
    (m.label = 1 ∧ ClockClient.cancelledOf id (.ok m) = .error (.timeoutNotFound id)) ∨
    ∃ text, ClockClient.cancelledOf id (.ok m) = .error (.protocol text)

/-- All replies that the clock gives, and all messages that a faulty one could give. -/
theorem reply_codec : ReplyCodec where
  returns := ClockState.ofMessage_serve
  failed opcode _ hfailed := Reply.ofMessage_of_failed hfailed rfl opcode
  time_iff _ _ := ClockClient.timeOf_eq_ok_iff_words
  time_ok_iff _ := ClockClient.exists_timeOf_eq_ok_iff
  time_else := ClockClient.timeOf_cases
  scheduled_iff _ _ := ClockClient.scheduledOf_eq_ok_iff_words
  scheduled_ok_iff _ := ClockClient.exists_scheduledOf_eq_ok_iff
  full_iff _ := ClockClient.scheduledOf_eq_full_iff
  scheduled_else := ClockClient.scheduledOf_cases
  cancelled_iff _ _ := ClockClient.cancelledOf_eq_ok_iff
  notFound_iff _ _ := ClockClient.cancelledOf_eq_notFound_iff
  cancelled_else m id := ClockClient.cancelledOf_cases id m

end Osal
