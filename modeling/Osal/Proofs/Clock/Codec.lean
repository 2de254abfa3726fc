import Osal.Proofs.Clock.Client
import Osal.Proofs.Clock.Requests

/-!
# The wire is transparent

What a client sends is what the clock decodes, unless it asks for a periodic timeout without a period;
and what the clock answers is what the client decodes, if it is an answer to the operation.

`Request.decode_eq_ok_iff` and `Reply.ofMessage_eq_ok_iff` say of any message what it is decoded as; a
message that is sent is a case of that.
-/

namespace Osal

theorem bind_eq_ok_iff {ε α β : Type} {x : Except ε α} {f : α → Except ε β} {b : β} :
    x >>= f = .ok b ↔ ∃ a, x = .ok a ∧ f a = .ok b := by
  cases x with
  | ok a => exact ⟨fun h => ⟨a, rfl, h⟩, fun ⟨_, ha, h⟩ => Except.ok.inj ha ▸ h⟩
  | error e => exact ⟨nofun, nofun⟩

/-! ## Words -/

@[simp] theorem TimeoutId.ofWord_eq_ok_iff {w : Word} {id : TimeoutId} :
    TimeoutId.ofWord w = .ok id ↔ w = id.toWord := by
  rw [TimeoutId.ofWord]
  constructor
  · intro h
    split at h
    · rename_i hid
      cases h
      exact (TimeoutId.toWord_of_ofWord? hid).symm
    · cases h
  · rintro rfl
    rw [TimeoutId.ofWord?_toWord]

@[simp] theorem Opcode.ofWord_eq_ok_iff {w : Word} {opcode : Opcode} :
    Opcode.ofWord w = .ok opcode ↔ w = opcode.toWord := by
  constructor
  · intro h
    rw [Opcode.ofWord] at h
    repeat' split at h
    all_goals cases h
    all_goals assumption
  · rintro rfl
    cases opcode <;> rfl

@[simp] theorem Status.ofWord_eq_ok_iff {w : Word} {status : Status} :
    Status.ofWord w = .ok status ↔ w = status.toWord := by
  constructor
  · intro h
    rw [Status.ofWord] at h
    repeat' split at h
    all_goals cases h
    all_goals assumption
  · rintro rfl
    exact Status.ofWord_toWord status

namespace Message

variable {κ : Type} {m : Message κ} {i : Nat}

@[simp] theorem arg_eq_ok_iff {w : Word} : m.arg i = .ok w ↔ m.word? i = some w := by
  rw [arg]
  cases m.word? i with
  | none => simp
  | some _ => simp

@[simp] theorem tickArg_eq_ok_iff {tick : UInt32} :
    m.tickArg i = .ok tick ↔ m.word? i = some tick.toUInt64 := by
  rw [tickArg, bind_eq_ok_iff]
  simp only [arg_eq_ok_iff]
  constructor
  · rintro ⟨w, hw, h⟩
    split at h
    · rename_i hfits
      cases h
      rw [hw, hfits]
    · cases h
  · exact fun h => ⟨_, h, by simp⟩

@[simp] theorem flagArg_eq_ok_iff {flag : Bool} :
    m.flagArg i = .ok flag ↔ m.word? i = some (if flag then 1 else 0) := by
  rw [flagArg, bind_eq_ok_iff]
  simp only [arg_eq_ok_iff]
  constructor
  · rintro ⟨w, hw, h⟩
    repeat' split at h
    · cases h
      simp_all
    · cases h
      simp_all
    · cases h
  · exact fun h => ⟨_, h, by cases flag <;> rfl⟩

end Message

namespace Request

variable {κ : Type} {m : Message κ}

/-- The clock refuses a periodic timeout without a period, and nothing else that a client sends. -/
def IsRefused : Request κ → Prop
  | .setTimeout periodic period _ => periodic = true ∧ period = 0
  | .getTime | .cancelTimeout _ => False

/-- The label, the words and the capability of a message make up a request. -/
def IsIn (m : Message κ) : Request κ → Prop
  | .getTime => m.label = 0
  | .setTimeout periodic period wake =>
    m.label = 1 ∧ m.word? 0 = some (if periodic then 1 else 0) ∧
      m.word? 1 = some period.toUInt64 ∧ ¬ (periodic = true ∧ period = 0) ∧ m.cap = some wake
  | .cancelTimeout id => m.label = 2 ∧ m.word? 0 = some id.toWord

theorem decode_eq_ok_iff {request : Request κ} : decode m = .ok request ↔ request.IsIn m := by
  rw [decode, bind_eq_ok_iff]
  simp only [Opcode.ofWord_eq_ok_iff]
  constructor
  · rintro ⟨opcode, hlabel, h⟩
    cases opcode with
    | getTime =>
      cases h
      exact hlabel
    | setTimeout =>
      obtain ⟨periodic, hflag, h⟩ := bind_eq_ok_iff.1 h
      obtain ⟨period, htick, h⟩ := bind_eq_ok_iff.1 h
      split at h
      · cases h
      · rename_i hperiod
        split at h
        · rename_i wake hcap
          cases h
          refine ⟨hlabel, Message.flagArg_eq_ok_iff.1 hflag, Message.tickArg_eq_ok_iff.1 htick,
            ?_, hcap⟩
          simpa using hperiod
        · cases h
    | cancelTimeout =>
      obtain ⟨w, hw, h⟩ := bind_eq_ok_iff.1 h
      obtain ⟨id, hid, h⟩ := bind_eq_ok_iff.1 h
      cases h
      obtain rfl := TimeoutId.ofWord_eq_ok_iff.1 hid
      exact ⟨hlabel, Message.arg_eq_ok_iff.1 hw⟩
  · intro h
    cases request with
    | getTime => exact ⟨.getTime, h, rfl⟩
    | setTimeout periodic period wake =>
      obtain ⟨hlabel, hflag, htick, hperiod, hcap⟩ := h
      refine ⟨.setTimeout, hlabel, bind_eq_ok_iff.2
        ⟨periodic, Message.flagArg_eq_ok_iff.2 hflag, bind_eq_ok_iff.2
          ⟨period, Message.tickArg_eq_ok_iff.2 htick, ?_⟩⟩⟩
      rw [if_neg (by simpa using hperiod), hcap]
    | cancelTimeout id =>
      obtain ⟨hlabel, hword⟩ := h
      exact ⟨.cancelTimeout, hlabel, bind_eq_ok_iff.2
        ⟨_, Message.arg_eq_ok_iff.2 hword, bind_eq_ok_iff.2
          ⟨id, TimeoutId.ofWord_eq_ok_iff.2 rfl, rfl⟩⟩⟩

theorem decode_toMessage {request : Request κ} (h : ¬ request.IsRefused) :
    decode request.toMessage = .ok request := by
  rw [decode_eq_ok_iff]
  cases request with
  | getTime => rfl
  | setTimeout periodic period wake => exact ⟨rfl, rfl, rfl, h, rfl⟩
  | cancelTimeout id => exact ⟨rfl, rfl⟩

theorem decode_of_isRefused {request : Request κ} (h : request.IsRefused) :
    decode request.toMessage = .error .zeroPeriod := by
  cases request with
  | getTime | cancelTimeout id => exact h.elim
  | setTimeout periodic period wake =>
    obtain ⟨rfl, rfl⟩ := h
    rfl

end Request

namespace Reply

variable {κ : Type} {m : Message κ}

/-- A reply that an operation can read. -/
def Answers : Opcode → Reply → Prop
  | _, .failed status => status ≠ .ok
  | .getTime, .time _ | .setTimeout, .scheduled .. | .cancelTimeout, .cancelled => True
  | _, _ => False

/-- The label and the words of a message make up a reply; words that the operation does not read may be
anything. -/
def IsIn (m : Message κ) : Reply → Prop
  | .time tick => m.label = 0 ∧ m.word? 0 = some tick.toUInt64
  | .scheduled id insertedAt =>
    m.label = 0 ∧ m.word? 0 = some id.toWord ∧ m.word? 1 = some insertedAt.toUInt64
  | .cancelled => m.label = 0
  | .failed status => m.label = status.toWord

theorem Answers.ne_ok {opcode : Opcode} {status : Status} (h : (Reply.failed status).Answers opcode) :
    status ≠ .ok := by
  cases opcode <;> exact h

/-- A reply that tells of a failure is read alike by every operation, known or not. -/
theorem ofMessage_of_failed {status : Status} (hfailed : status ≠ .ok)
    (hlabel : m.label = status.toWord) (opcode : Word) :
    ofMessage opcode m = .ok (.failed status) := by
  refine bind_eq_ok_iff.2 ⟨status, Status.ofWord_eq_ok_iff.2 hlabel, ?_⟩
  rw [if_pos hfailed]
  rfl

theorem ofMessage_eq_ok_iff {opcode : Opcode} {reply : Reply} :
    ofMessage opcode.toWord m = .ok reply ↔ reply.Answers opcode ∧ reply.IsIn m := by
  have hopcode : Opcode.ofWord opcode.toWord = .ok opcode := Opcode.ofWord_eq_ok_iff.2 rfl
  constructor
  · intro h
    obtain ⟨status, hstatus, h⟩ := bind_eq_ok_iff.1 h
    have hlabel := Status.ofWord_eq_ok_iff.1 hstatus
    split at h
    · rename_i hfailed
      cases h
      exact ⟨by cases opcode <;> exact hfailed, hlabel⟩
    · rename_i hok
      obtain rfl := Decidable.not_not.1 hok
      obtain ⟨_, hread, h⟩ := bind_eq_ok_iff.1 h
      obtain rfl := Except.ok.inj (hopcode.symm.trans hread)
      cases opcode with
      | getTime =>
        obtain ⟨tick, htick, h⟩ := bind_eq_ok_iff.1 h
        cases h
        exact ⟨trivial, hlabel, Message.tickArg_eq_ok_iff.1 htick⟩
      | setTimeout =>
        obtain ⟨w, hw, h⟩ := bind_eq_ok_iff.1 h
        obtain ⟨id, hid, h⟩ := bind_eq_ok_iff.1 h
        obtain ⟨tick, htick, h⟩ := bind_eq_ok_iff.1 h
        cases h
        obtain rfl := TimeoutId.ofWord_eq_ok_iff.1 hid
        exact ⟨trivial, hlabel, Message.arg_eq_ok_iff.1 hw, Message.tickArg_eq_ok_iff.1 htick⟩
      | cancelTimeout =>
        cases h
        exact ⟨trivial, hlabel⟩
  · rintro ⟨hanswers, hin⟩
    cases reply with
    | failed status => exact ofMessage_of_failed hanswers.ne_ok hin opcode.toWord
    | time tick =>
      cases opcode with
      | getTime =>
        exact bind_eq_ok_iff.2 ⟨.ok, Status.ofWord_eq_ok_iff.2 hin.1, bind_eq_ok_iff.2
          ⟨.getTime, hopcode, bind_eq_ok_iff.2 ⟨tick, Message.tickArg_eq_ok_iff.2 hin.2, rfl⟩⟩⟩
      | setTimeout | cancelTimeout => exact hanswers.elim
    | scheduled id insertedAt =>
      cases opcode with
      | setTimeout =>
        exact bind_eq_ok_iff.2 ⟨.ok, Status.ofWord_eq_ok_iff.2 hin.1, bind_eq_ok_iff.2
          ⟨.setTimeout, hopcode, bind_eq_ok_iff.2
            ⟨_, Message.arg_eq_ok_iff.2 hin.2.1, bind_eq_ok_iff.2
              ⟨id, TimeoutId.ofWord_eq_ok_iff.2 rfl, bind_eq_ok_iff.2
                ⟨insertedAt, Message.tickArg_eq_ok_iff.2 hin.2.2, rfl⟩⟩⟩⟩⟩
      | getTime | cancelTimeout => exact hanswers.elim
    | cancelled =>
      cases opcode with
      | cancelTimeout =>
        exact bind_eq_ok_iff.2 ⟨.ok, Status.ofWord_eq_ok_iff.2 hin, bind_eq_ok_iff.2
          ⟨.cancelTimeout, hopcode, rfl⟩⟩
      | getTime | setTimeout => exact hanswers.elim

theorem isIn_toMessage (reply : Reply) : reply.IsIn (reply.toMessage : Message κ) := by
  cases reply with
  | time tick => exact ⟨rfl, rfl⟩
  | scheduled id insertedAt => exact ⟨rfl, rfl, rfl⟩
  | cancelled | failed status => rfl

theorem ofMessage_toMessage {opcode : Opcode} {reply : Reply} (h : reply.Answers opcode) :
    ofMessage opcode.toWord (reply.toMessage : Message κ) = .ok reply :=
  ofMessage_eq_ok_iff.2 ⟨h, reply.isIn_toMessage⟩

end Reply

namespace ClockClient

theorem replyOf_toMessage {opcode : Opcode} {reply : Reply} (h : reply.Answers opcode) :
    replyOf opcode (.ok reply.toMessage) = .ok reply := by
  rw [replyOf, Reply.ofMessage_toMessage h]

@[simp] theorem timeOf_time (tick : Tick) : timeOf (.ok (Reply.time tick).toMessage) = .ok tick := by
  rw [timeOf, replyOf_toMessage (show Reply.Answers .getTime (.time tick) from trivial)]
  rfl

theorem replyOf_failed (opcode : Opcode) {status : Status} (h : status ≠ .ok) :
    replyOf opcode (.ok (Reply.failed status).toMessage) = .ok (.failed status) :=
  replyOf_toMessage (by cases opcode <;> exact h)

@[simp] theorem scheduledOf_failed : scheduledOf (.ok (Reply.failed .failed).toMessage) =
    .error .schedulerFull := by
  rw [scheduledOf, replyOf_failed _ (by decide)]
  rfl

@[simp] theorem scheduledOf_badRequest : scheduledOf (.ok (Reply.failed .badRequest).toMessage) =
    .error (.protocol "unexpected sysclock reply Failed(BadRequest)") := by
  rw [scheduledOf, replyOf_failed _ (by decide)]
  rfl

@[simp] theorem cancelledOf_cancelled (id : TimeoutId) :
    cancelledOf id (.ok Reply.cancelled.toMessage) = .ok () := by
  rw [cancelledOf, replyOf_toMessage (show Reply.Answers .cancelTimeout .cancelled from trivial)]
  rfl

@[simp] theorem cancelledOf_failed (id : TimeoutId) :
    cancelledOf id (.ok (Reply.failed .failed).toMessage) = .error (.timeoutNotFound id) := by
  rw [cancelledOf, replyOf_failed _ (by decide)]
  rfl

end ClockClient

end Osal
