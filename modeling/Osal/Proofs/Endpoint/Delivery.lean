import Osal.Proofs.Endpoint.Slots
import Osal.Proofs.Histories

/-!
# Calls are delivered once and answered once

An exchange is an endpoint with any number of capabilities, servers and callers, which come and go in
any order. Its history tells which calls were sent, which of them were received, and how they ended;
what a caller gets back and what a server is told is read off the history.

`delivered_once`: calls are received in the order in which they were sent, as they were sent, and each
at most once. A caller gets what its own call was answered with; it is abandoned just if its call was
dropped, or still queued when the last receiver went away; and it is refused just if there was none.
-/

namespace Osal

namespace Exchange

variable {κ : Type}

/-- What the history of an endpoint tells. A call that was received is in the slot of its number. -/
inductive Deed (κ : Type) where
  | minted (cap : Nat) (badge : Badge)
  | capDropped (cap : Nat)
  | opened
  | closed
  | endpointDropped
  | called (cap : Nat) (call : Call κ)
  /-- A server found this in the slot that it was told. -/
  | received (slot : Nat) (found : Option (Call κ))
  | refused (error : PlatformError)
  | took (slot : Nat) (cap : Option κ)
  | replied (slot : Nat) (message : Message κ)
  | discarded (slot : Nat)

/-! ## What a history says -/

/-- The calls in the order in which they were sent. -/
def calls : List (Deed κ) → List (Call κ)
  | [] => []
  | .called _ call :: past => calls past ++ [call]
  | _ :: past => calls past

/-- The calls in the order in which servers received them. -/
def receipts : List (Deed κ) → List (Call κ)
  | [] => []
  | .received _ (some call) :: past => receipts past ++ [call]
  | _ :: past => receipts past

def servers : List (Deed κ) → Nat
  | [] => 0
  | .opened :: past => servers past + 1
  | .closed :: past => servers past - 1
  | _ :: past => servers past

def Owned (cap : Nat) (badge : Badge) (past : List (Deed κ)) : Prop :=
  .minted cap badge ∈ past ∧ .capDropped cap ∉ past

def CanReceive (past : List (Deed κ)) : Prop := .endpointDropped ∉ past ∨ 0 < servers past

def CanSend (past : List (Deed κ)) : Prop :=
  .endpointDropped ∉ past ∨ ∃ cap badge, Owned cap badge past

def Deed.Takes (slot : Nat) : Deed κ → Prop
  | .took other _ => other = slot
  | _ => False

def Deed.Ends (slot : Nat) : Deed κ → Prop
  | .replied other _ | .discarded other => other = slot
  | _ => False

/-- The capability that came with the call in a slot was asked for. -/
def Taken (slot : Nat) (past : List (Deed κ)) : Prop := ∃ deed ∈ past, deed.Takes slot

def Ended (slot : Nat) (past : List (Deed κ)) : Prop := ∃ deed ∈ past, deed.Ends slot

def Made (caller slot : Nat) (past : List (Deed κ)) : Prop :=
  ∃ call, (receipts past)[slot]? = some call ∧ call.caller = caller

/-- The call of a caller was sent and is not received yet. -/
def Waits (caller : Nat) (past : List (Deed κ)) : Prop :=
  ∃ call ∈ calls past, call.caller = caller ∧ call ∉ receipts past

/-- A deed is how the call of a caller ends. -/
def Settles (caller : Nat) (result : CallResult κ) (past : List (Deed κ)) (deed : Deed κ) : Prop :=
  match deed with
  | .called _ call =>
    call.caller = caller ∧ ¬ CanReceive past ∧ result = .error .endpointClosed
  | .replied slot message => Made caller slot past ∧ result = .ok message
  | .discarded slot => Made caller slot past ∧ result = .error .callerAbandoned
  | .closed | .endpointDropped =>
    ¬ CanReceive (deed :: past) ∧ Waits caller past ∧ result = .error .callerAbandoned
  | _ => False

/-- What is to be said of a deed. -/
def Law (past : List (Deed κ)) : Deed κ → Prop
  | .minted cap _ => ∀ badge, .minted cap badge ∉ past
  | .capDropped cap => ∃ badge, Owned cap badge past
  | .opened => .endpointDropped ∉ past
  | .closed => 0 < servers past
  | .endpointDropped => .endpointDropped ∉ past
  | .called cap call => Owned cap call.badge past ∧ call.caller = (calls past).length
  | .received slot found =>
    slot = (receipts past).length ∧ ∃ call, found = some call ∧ (calls past)[slot]? = some call
  | .refused error => error = .endpointClosed ∧ calls past = receipts past ∧ ¬ CanSend past
  | .took slot cap =>
    ∃ call, (receipts past)[slot]? = some call ∧
      (¬ Taken slot past ∧ cap = call.message.cap ∨ Taken slot past ∧ cap = none)
  | .replied slot _ | .discarded slot => slot < (receipts past).length ∧ ¬ Ended slot past

end Exchange

/-- An endpoint that starts without servers, and what was done with it. -/
structure Exchange (κ : Type) where
  endpoint : Endpoint κ := { servers := 0 }
  history : List (Exchange.Deed κ) := []

namespace Exchange

variable {κ : Type}

/-- What can be done with an endpoint. An event that is impossible at its moment changes nothing. -/
inductive Event (κ : Type) where
  | mint (badge : Badge)
  | remint (cap : Nat) (badge : Badge)
  | dropCap (cap : Nat)
  | openServer
  | closeServer
  | dropEndpoint
  | call (cap : Nat) (message : Message κ)
  /-- A server asks for a call, and is blocked while there is none. -/
  | receive
  | takeCap (slot : Nat)
  | reply (slot : Nat) (message : Message κ)
  | discard (slot : Nat)

def tell (c : Exchange κ) (endpoint : Endpoint κ) (deed : Deed κ) : Exchange κ :=
  { endpoint, history := deed :: c.history }

def mint (c : Exchange κ) (badge : Badge) : Exchange κ :=
  c.tell (c.endpoint.mint badge).2 (.minted (c.endpoint.mint badge).1 badge)

def send (c : Exchange κ) (cap : Nat) (badge : Badge) (message : Message κ) : Exchange κ :=
  let next := c.endpoint.send badge message
  c.tell next.2 (.called cap { caller := next.1, badge, message })

def receive (c : Exchange κ) : Exchange κ :=
  match c.endpoint.receive with
  | some (.ok slot, endpoint) => c.tell endpoint (.received slot (endpoint.call? slot))
  | some (.error error, endpoint) => c.tell endpoint (.refused error)
  | none => c

def handle (c : Exchange κ) : Event κ → Exchange κ
  | .mint badge => if c.endpoint.live then c.mint badge else c
  | .remint cap badge => if (c.endpoint.badge? cap).isSome then c.mint badge else c
  | .dropCap cap =>
    if (c.endpoint.badge? cap).isSome then c.tell (c.endpoint.dropCap cap) (.capDropped cap) else c
  | .openServer =>
    if c.endpoint.live then
      c.tell { c.endpoint with servers := c.endpoint.servers + 1 } .opened
    else c
  | .closeServer => if 0 < c.endpoint.servers then c.tell c.endpoint.dropServer .closed else c
  | .dropEndpoint =>
    if c.endpoint.live then c.tell c.endpoint.dropEndpoint .endpointDropped else c
  | .call cap message =>
    match c.endpoint.badge? cap with
    | some badge => c.send cap badge message
    | none => c
  | .receive => if 0 < c.endpoint.servers then c.receive else c
  | .takeCap slot =>
    if (c.endpoint.call? slot).isSome then
      c.tell (c.endpoint.takeCap slot).2 (.took slot (c.endpoint.takeCap slot).1)
    else c
  | .reply slot message =>
    if (c.endpoint.call? slot).isSome then
      c.tell (c.endpoint.reply slot message) (.replied slot message)
    else c
  | .discard slot =>
    if (c.endpoint.call? slot).isSome then
      c.tell (c.endpoint.dropCall slot) (.discarded slot)
    else c

def run (c : Exchange κ) (events : List (Event κ)) : Exchange κ := events.foldl handle c

variable {e e' : Endpoint κ} {past : List (Deed κ)} {deed : Deed κ}

theorem taken_cons {slot : Nat} : Taken slot (deed :: past) ↔ deed.Takes slot ∨ Taken slot past := by
  simp [Taken]

theorem ended_cons {slot : Nat} : Ended slot (deed :: past) ↔ deed.Ends slot ∨ Ended slot past := by
  simp [Ended]

/-! ## Who is left -/

/-- The endpoint, its servers and its capabilities are those that the history tells. -/
structure Parties (e : Endpoint κ) (past : List (Deed κ)) : Prop where
  live_iff : e.live = true ↔ .endpointDropped ∉ past
  servers_eq : e.servers = servers past
  badge?_iff : ∀ cap badge, e.badge? cap = some badge ↔ Owned cap badge past
  known : ∀ cap, (∃ badge, .minted cap badge ∈ past) ∨ .capDropped cap ∈ past → cap < e.caps.size

namespace Parties

theorem hasReceiver_iff (h : Parties e past) : e.hasReceiver = true ↔ CanReceive past := by
  rw [Endpoint.hasReceiver, Bool.or_eq_true, decide_eq_true_eq, h.live_iff, h.servers_eq, CanReceive]

theorem hasSender_iff (h : Parties e past) : e.hasSender = true ↔ CanSend past := by
  rw [Endpoint.hasSender, Bool.or_eq_true, Endpoint.any_caps_iff, h.live_iff, CanSend]
  simp only [h.badge?_iff]

theorem live_iff_cons (h : Parties e past) (hdropped : deed ≠ .endpointDropped) :
    e.live = true ↔ .endpointDropped ∉ deed :: past := by
  rw [h.live_iff, List.mem_cons, not_or]
  exact ⟨fun hlive => ⟨hdropped.symm, hlive⟩, And.right⟩

theorem of_caps_eq (h : Parties e past) (hlive : e'.live = e.live) (hcaps : e'.caps = e.caps)
    (hservers : e'.servers = servers (deed :: past)) (hdropped : deed ≠ .endpointDropped)
    (hminted : ∀ cap badge, deed ≠ .minted cap badge) (hcap : ∀ cap, deed ≠ .capDropped cap) :
    Parties e' (deed :: past) where
  live_iff := hlive ▸ h.live_iff_cons hdropped
  servers_eq := hservers
  badge?_iff cap badge := by
    rw [Endpoint.badge?, hcaps]
    refine (h.badge?_iff cap badge).trans ?_
    simp only [Owned, List.mem_cons, (hminted cap badge).symm, (hcap cap).symm, false_or]
  known cap hknown := by
    simp only [List.mem_cons, (hminted cap _).symm, (hcap cap).symm, false_or] at hknown
    rw [hcaps]
    exact h.known cap hknown

theorem mint (h : Parties e past) (badge : Badge) :
    Parties (e.mint badge).2 (.minted (e.mint badge).1 badge :: past) where
  live_iff := h.live_iff_cons nofun
  servers_eq := h.servers_eq
  badge?_iff cap other := by
    rw [Endpoint.badge?_mint]
    by_cases hcap : cap = e.caps.size
    · subst hcap
      obtain ⟨hminted, hdropped⟩ := not_or.1 fun hknown => Nat.lt_irrefl _ (h.known _ hknown)
      simp [Owned, Endpoint.mint, not_exists.1 hminted, hdropped, eq_comm]
    · simp [Owned, Endpoint.mint, hcap, h.badge?_iff]
  known cap hknown := by
    rw [Endpoint.mint, Array.size_push]
    by_cases hcap : cap = e.caps.size
    · omega
    · have := h.known cap (by simpa [Endpoint.mint, hcap] using hknown)
      omega

theorem dropCap (h : Parties e past) (cap : Nat) (hcap : (e.badge? cap).isSome) :
    Parties (e.dropCap cap) (.capDropped cap :: past) where
  live_iff := h.live_iff_cons nofun
  servers_eq := h.servers_eq
  badge?_iff other badge := by
    by_cases hother : other = cap
    · simp [Owned, hother]
    · simp [Owned, hother, h.badge?_iff]
  known other hknown := by
    rw [Endpoint.dropCap, Array.size_setIfInBounds]
    by_cases hother : other = cap
    · obtain ⟨badge, hbadge⟩ := Option.isSome_iff_exists.1 hcap
      exact hother ▸ Endpoint.lt_size_of_badge? hbadge
    · exact h.known other (by simpa [hother] using hknown)

end Parties

/-! ## The order of the calls -/

/-- The queue stands between what was received and what was lost, and calls are counted. -/
structure Ordered (e : Endpoint κ) (past : List (Deed κ)) : Prop where
  callers : (calls past).map Call.caller = List.range e.results.size
  size_received : e.received.size = (receipts past).length
  split : ∃ lost, calls past = receipts past ++ e.queue ++ lost ∧ (e.hasReceiver = true → lost = [])
  drained : e.hasReceiver = false → e.queue = []

namespace Ordered

variable {call : Call κ} {caller slot : Nat}

theorem length_calls (h : Ordered e past) : (calls past).length = e.results.size := by
  have hlength := congrArg List.length h.callers
  rwa [List.length_map, List.length_range] at hlength

theorem caller_of_calls (h : Ordered e past) (hcall : (calls past)[slot]? = some call) :
    call.caller = slot := by
  have hget := congrArg (·[slot]?) h.callers
  obtain ⟨hlt, -⟩ := List.getElem?_eq_some_iff.1 hcall
  simp only [List.getElem?_map, hcall, Option.map_some] at hget
  rw [List.getElem?_range (h.length_calls ▸ hlt)] at hget
  exact Option.some.inj hget

theorem receipts_initial (h : Ordered e past) : receipts past <+: calls past := by
  obtain ⟨lost, hsplit, -⟩ := h.split
  exact ⟨e.queue ++ lost, by rw [hsplit, List.append_assoc]⟩

theorem caller_of_receipts (h : Ordered e past) (hcall : (receipts past)[slot]? = some call) :
    call.caller = slot :=
  h.caller_of_calls (getElem?_of_initial h.receipts_initial hcall)

theorem made_iff (h : Ordered e past) :
    Made caller slot past ↔ caller = slot ∧ slot < (receipts past).length := by
  constructor
  · rintro ⟨call, hcall, rfl⟩
    exact ⟨h.caller_of_receipts hcall, (List.getElem?_eq_some_iff.1 hcall).1⟩
  · rintro ⟨rfl, hlt⟩
    exact ⟨_, List.getElem?_eq_getElem hlt, h.caller_of_receipts (List.getElem?_eq_getElem hlt)⟩

theorem bounds_of_mem_queue (h : Ordered e past) (hcall : call ∈ e.queue) :
    (receipts past).length ≤ call.caller ∧ call.caller < e.results.size := by
  obtain ⟨lost, hsplit, -⟩ := h.split
  obtain ⟨i, hi⟩ := List.mem_iff_getElem?.1 hcall
  obtain ⟨hlt, -⟩ := List.getElem?_eq_some_iff.1 hi
  have hget : (calls past)[(receipts past).length + i]? = some call := by
    rw [hsplit, List.append_assoc, List.getElem?_append_right (Nat.le_add_right ..),
      Nat.add_sub_cancel_left, List.getElem?_append_left hlt, hi]
  rw [← h.length_calls, h.caller_of_calls hget]
  exact ⟨Nat.le_add_right .., (List.getElem?_eq_some_iff.1 hget).1⟩

theorem waits_iff (h : Ordered e past) (hreceiver : e.hasReceiver = true) :
    Waits caller past ↔ caller ∈ e.queue.map Call.caller := by
  obtain ⟨lost, hsplit, hlost⟩ := h.split
  obtain rfl := hlost hreceiver
  rw [List.append_nil] at hsplit
  constructor
  · rintro ⟨call, hcall, rfl, hnew⟩
    rw [hsplit, List.mem_append] at hcall
    exact List.mem_map_of_mem (hcall.resolve_left hnew)
  · intro hmem
    obtain ⟨call, hcall, rfl⟩ := List.mem_map.1 hmem
    refine ⟨call, hsplit ▸ List.mem_append_right _ hcall, rfl, fun hold => ?_⟩
    obtain ⟨i, hi⟩ := List.mem_iff_getElem?.1 hold
    have hlt := (List.getElem?_eq_some_iff.1 hi).1
    have hcaller := h.caller_of_receipts hi
    have hle := (h.bounds_of_mem_queue hcall).1
    omega

theorem calls_eq (h : Ordered e past) (hreceiver : e.hasReceiver = true) :
    calls past = receipts past ++ e.queue := by
  obtain ⟨lost, hsplit, hlost⟩ := h.split
  rw [hsplit, hlost hreceiver, List.append_nil]

theorem of_same (h : Ordered e past) (hcalls : calls (deed :: past) = calls past)
    (hreceipts : receipts (deed :: past) = receipts past) (hqueue : e'.queue = e.queue)
    (hreceived : e'.received.size = e.received.size) (hresults : e'.results.size = e.results.size)
    (hreceiver : e'.hasReceiver = e.hasReceiver) : Ordered e' (deed :: past) where
  callers := by rw [hcalls, hresults, h.callers]
  size_received := by rw [hreceived, hreceipts, h.size_received]
  split := by
    rw [hcalls, hreceipts, hqueue, hreceiver]
    exact h.split
  drained hnone := by
    rw [hqueue]
    exact h.drained (hreceiver ▸ hnone)

end Ordered

/-! ## The calls that are held -/

/-- A call that a server holds is as it was sent, but for a capability that was moved out of it. -/
structure Held (e : Endpoint κ) (past : List (Deed κ)) : Prop where
  call?_iff : ∀ slot call, e.call? slot = some call ↔
    ¬ Ended slot past ∧ ∃ sent, (receipts past)[slot]? = some sent ∧
      (¬ Taken slot past ∧ call = sent ∨ Taken slot past ∧ call = Endpoint.bare sent)
  known : ∀ slot, Ended slot past ∨ Taken slot past → slot < (receipts past).length

theorem Held.of_same (h : Held e past) (hreceived : e'.received = e.received)
    (hreceipts : receipts (deed :: past) = receipts past)
    (hended : ∀ slot, Ended slot (deed :: past) ↔ Ended slot past)
    (htaken : ∀ slot, Taken slot (deed :: past) ↔ Taken slot past) : Held e' (deed :: past) where
  call?_iff slot call := by
    rw [Endpoint.call?, hreceived, hreceipts, hended, htaken]
    exact h.call?_iff slot call
  known slot hknown := by
    rw [hended, htaken] at hknown
    rw [hreceipts]
    exact h.known slot hknown

/-! ## The results of the callers -/

/-- A caller gets what a deed settled, and has nothing while its call is queued or held. -/
structure Answered (e : Endpoint κ) (past : List (Deed κ)) : Prop where
  result?_iff : ∀ caller result, e.result? caller = some result ↔
    Occurred (Settles caller result) past
  queued : ∀ call ∈ e.queue, e.result? call.caller = none
  held : ∀ slot call, e.call? slot = some call → e.result? slot = none

/-- What holds of an endpoint and its history after any events. -/
structure Kept (e : Endpoint κ) (past : List (Deed κ)) : Prop where
  parties : Parties e past
  ordered : Ordered e past
  held : Held e past
  answered : Answered e past
  lawful : Lawful Law past

theorem kept_start : Kept ({ servers := 0 } : Endpoint κ) [] where
  parties :=
    { live_iff := by simp
      servers_eq := rfl
      badge?_iff := by simp [Endpoint.badge?, Owned]
      known := by simp }
  ordered :=
    { callers := rfl
      size_received := rfl
      split := ⟨[], rfl, fun _ => rfl⟩
      drained := fun _ => rfl }
  held :=
    { call?_iff := by simp [Endpoint.call?, receipts]
      known := by simp [Ended, Taken] }
  answered :=
    { result?_iff := fun caller result => ⟨nofun, fun h => (not_occurred_nil h).elim⟩
      queued := nofun
      held := fun _ _ _ => rfl }
  lawful := lawful_nil

/-- A deed that is about no call. -/
def Deed.IsQuiet : Deed κ → Prop
  | .minted .. | .capDropped _ | .opened | .closed | .endpointDropped | .refused _ => True
  | .called .. | .received .. | .took .. | .replied .. | .discarded _ => False

namespace Deed.IsQuiet

theorem calls_eq (h : deed.IsQuiet) : calls (deed :: past) = calls past := by
  cases deed with
  | minted | capDropped | opened | closed | endpointDropped | refused => rfl
  | called | received | took | replied | discarded => exact h.elim

theorem receipts_eq (h : deed.IsQuiet) : receipts (deed :: past) = receipts past := by
  cases deed with
  | minted | capDropped | opened | closed | endpointDropped | refused => rfl
  | called | received | took | replied | discarded => exact h.elim

theorem ended_iff (h : deed.IsQuiet) (slot : Nat) :
    Ended slot (deed :: past) ↔ Ended slot past := by
  refine ended_cons.trans (or_iff_right ?_)
  cases deed with
  | minted | capDropped | opened | closed | endpointDropped | refused => exact id
  | called | received | took | replied | discarded => exact h.elim

theorem taken_iff (h : deed.IsQuiet) (slot : Nat) :
    Taken slot (deed :: past) ↔ Taken slot past := by
  refine taken_cons.trans (or_iff_right ?_)
  cases deed with
  | minted | capDropped | opened | closed | endpointDropped | refused => exact id
  | called | received | took | replied | discarded => exact h.elim

end Deed.IsQuiet

/-- A deed that ends the call in a slot with a result for its caller. -/
inductive Deed.Finishes (slot : Nat) : CallResult κ → Deed κ → Prop where
  | replied (message : Message κ) : Finishes slot (.ok message) (.replied slot message)
  | discarded : Finishes slot (.error .callerAbandoned) (.discarded slot)

namespace Deed.Finishes

variable {slot : Nat} {result : CallResult κ}

theorem calls_eq (h : deed.Finishes slot result) : calls (deed :: past) = calls past := by
  cases h <;> rfl

theorem receipts_eq (h : deed.Finishes slot result) : receipts (deed :: past) = receipts past := by
  cases h <;> rfl

theorem parties (h : deed.Finishes slot result) (hparties : Parties e past)
    (hlive : e'.live = e.live) (hcaps : e'.caps = e.caps) (hservers : e'.servers = e.servers) :
    Parties e' (deed :: past) := by
  cases h <;>
    exact hparties.of_caps_eq hlive hcaps (hservers.trans hparties.servers_eq) nofun nofun nofun

theorem ended_iff (h : deed.Finishes slot result) (other : Nat) :
    Ended other (deed :: past) ↔ other = slot ∨ Ended other past := by
  rw [ended_cons]
  cases h <;> exact or_congr_left eq_comm

theorem taken_iff (h : deed.Finishes slot result) (other : Nat) :
    Taken other (deed :: past) ↔ Taken other past := by
  rw [taken_cons]
  cases h <;> exact or_iff_right id

theorem settles_iff (h : deed.Finishes slot result) (hordered : Ordered e past)
    (hslot : slot < (receipts past).length) (caller : Nat) (other : CallResult κ) :
    Settles caller other past deed ↔ caller = slot ∧ other = result := by
  have hmade : Made caller slot past ↔ caller = slot := by
    rw [hordered.made_iff, and_iff_left hslot]
  rw [← hmade]
  cases h <;> exact Iff.rfl

end Deed.Finishes

namespace Kept

variable {call : Call κ} {caller slot : Nat}

theorem quiet (h : Kept e past) (hquiet : deed.IsQuiet) (hqueue : e'.queue = e.queue)
    (hreceived : e'.received = e.received) (hresults : e'.results = e.results)
    (hreceiver : e'.hasReceiver = e.hasReceiver) (hparties : Parties e' (deed :: past))
    (hlaw : Law past deed) (hsettles : ∀ caller result, ¬ Settles caller result past deed) :
    Kept e' (deed :: past) where
  parties := hparties
  ordered := h.ordered.of_same hquiet.calls_eq hquiet.receipts_eq hqueue (by rw [hreceived])
    (by rw [hresults]) hreceiver
  held := h.held.of_same hreceived hquiet.receipts_eq hquiet.ended_iff hquiet.taken_iff
  answered :=
    { result?_iff := fun caller result => by
        rw [occurred_cons, or_iff_right (hsettles caller result), Endpoint.result?, hresults]
        exact h.answered.result?_iff caller result
      queued := fun call hcall => by
        rw [Endpoint.result?, hresults]
        exact h.answered.queued call (hqueue ▸ hcall)
      held := fun slot call hcall => by
        rw [Endpoint.call?, hreceived] at hcall
        rw [Endpoint.result?, hresults]
        exact h.answered.held slot call hcall }
  lawful := lawful_cons.2 ⟨hlaw, h.lawful⟩

/-- Without the last receiver, the callers that are queued are abandoned. -/
theorem lose (h : Kept e past) (hreceiver : e.hasReceiver = true) (hlast : e'.hasReceiver = false)
    (hqueue : e'.queue = e.queue) (hreceived : e'.received = e.received)
    (hresults : e'.results = e.results) (hdeed : deed = .closed ∨ deed = .endpointDropped)
    (hparties : Parties e' (deed :: past)) (hlaw : Law past deed) :
    Kept e'.abandonQueue (deed :: past) := by
  have hquiet : deed.IsQuiet := by rcases hdeed with rfl | rfl <;> trivial
  have hnone : ¬ CanReceive (deed :: past) := by
    rw [← hparties.hasReceiver_iff, hlast]
    exact Bool.false_ne_true
  have hsettles : ∀ caller result, Settles caller result past deed ↔
      caller ∈ e.queue.map Call.caller ∧ result = .error .callerAbandoned := by
    intro caller result
    rw [← h.ordered.waits_iff hreceiver]
    rcases hdeed with rfl | rfl <;> exact and_iff_right hnone
  obtain ⟨results, habandon, hsize, hget⟩ := Endpoint.exists_results_of_abandonQueue hlast (by
    rw [hqueue, hresults]
    exact fun call hcall => (h.ordered.bounds_of_mem_queue hcall).2)
  have hresult : ∀ caller, e'.result? caller = e.result? caller := by
    intro caller
    rw [Endpoint.result?, hresults, Endpoint.result?]
  simp only [hqueue, hresult, habandon] at hget
  rw [habandon]
  refine
    { parties :=
        ⟨hparties.live_iff, hparties.servers_eq, hparties.badge?_iff, hparties.known⟩
      ordered := ⟨?_, ?_, ?_, fun _ => rfl⟩
      held := h.held.of_same hreceived hquiet.receipts_eq hquiet.ended_iff hquiet.taken_iff
      answered := ⟨fun caller result => ?_, fun call hcall => absurd hcall List.not_mem_nil,
        fun slot call hcall => ?_⟩
      lawful := lawful_cons.2 ⟨hlaw, h.lawful⟩ }
  · rw [hquiet.calls_eq, h.ordered.callers]
    exact congrArg List.range ((congrArg Array.size hresults).symm.trans hsize.symm)
  · rw [hquiet.receipts_eq, ← h.ordered.size_received]
    exact congrArg Array.size hreceived
  · refine ⟨e.queue, ?_, fun hsome => absurd (hlast.symm.trans hsome) Bool.false_ne_true⟩
    rw [hquiet.calls_eq, hquiet.receipts_eq, List.append_nil, h.ordered.calls_eq hreceiver]
  · rw [occurred_cons, ← h.answered.result?_iff, hsettles, hget]
    by_cases hmem : caller ∈ e.queue.map Call.caller
    · obtain ⟨call, hcall, rfl⟩ := List.mem_map.1 hmem
      simp [hmem, h.answered.queued call hcall, eq_comm]
    · simp [hmem]
  · have hheld : e.call? slot = some call := by
      rw [Endpoint.call?, ← hreceived]
      exact hcall
    have hslot := h.ordered.size_received ▸ Endpoint.lt_size_of_call? hheld
    rw [hget, if_neg, h.answered.held slot call hheld]
    intro hmem
    obtain ⟨call, hqueued, rfl⟩ := List.mem_map.1 hmem
    have hle := (h.ordered.bounds_of_mem_queue hqueued).1
    omega

theorem callers_send (h : Kept e past) (badge : Badge) (message : Message κ) :
    (calls past ++ [(⟨e.results.size, badge, message⟩ : Call κ)]).map Call.caller =
      List.range (e.results.size + 1) := by
  rw [List.map_append, h.ordered.callers, List.range_succ]
  rfl

theorem send_of_receiver (h : Kept e past) (hreceiver : e.hasReceiver = true) {cap : Nat}
    {badge : Badge} {message : Message κ}
    (hlaw : Law past (.called cap { caller := e.results.size, badge, message })) :
    Kept { e with
        queue := e.queue ++ [{ caller := e.results.size, badge, message }]
        results := e.results.push none }
      (.called cap { caller := e.results.size, badge, message } :: past) := by
  have hcan : CanReceive past := h.parties.hasReceiver_iff.1 hreceiver
  have hnew : e.result? e.results.size = none := Endpoint.result?_of_size_le (Nat.le_refl _)
  refine
    { parties := h.parties.of_caps_eq rfl rfl h.parties.servers_eq nofun nofun nofun
      ordered := ⟨?_, h.ordered.size_received, ⟨[], ?_, fun _ => rfl⟩, fun hnone => ?_⟩
      held := h.held.of_same rfl rfl (fun _ => ended_cons.trans (or_iff_right id))
        (fun _ => taken_cons.trans (or_iff_right id))
      answered := ⟨fun caller result => ?_, fun call hcall => ?_, fun slot call hcall => ?_⟩
      lawful := lawful_cons.2 ⟨hlaw, h.lawful⟩ }
  · rw [Array.size_push]
    exact h.callers_send badge message
  · change calls past ++ _ = receipts past ++ _ ++ _
    rw [h.ordered.calls_eq hreceiver, List.append_nil, List.append_assoc]
  · exact absurd (hreceiver.symm.trans hnone) (by decide)
  · rw [Endpoint.result?_push_none, occurred_cons, ← h.answered.result?_iff]
    exact (or_iff_right fun hsettles => hsettles.2.1 hcan).symm
  · rw [Endpoint.result?_push_none]
    rcases List.mem_append.1 hcall with hold | hlast
    · exact h.answered.queued call hold
    · simpa [List.mem_singleton.1 hlast] using hnew
  · simpa using h.answered.held slot call hcall

theorem send_of_no_receiver (h : Kept e past) (hreceiver : e.hasReceiver = false) {cap : Nat}
    {badge : Badge} {message : Message κ}
    (hlaw : Law past (.called cap { caller := e.results.size, badge, message })) :
    Kept { e with results := e.results.push (some (.error .endpointClosed)) }
      (.called cap { caller := e.results.size, badge, message } :: past) := by
  have hnone : ¬ CanReceive past := by
    rw [← h.parties.hasReceiver_iff, hreceiver]
    exact Bool.false_ne_true
  have hnew : e.result? e.results.size = none := Endpoint.result?_of_size_le (Nat.le_refl _)
  obtain ⟨lost, hsplit, -⟩ := h.ordered.split
  refine
    { parties := h.parties.of_caps_eq rfl rfl h.parties.servers_eq nofun nofun nofun
      ordered :=
        ⟨?_, h.ordered.size_received, ⟨lost ++ [⟨e.results.size, badge, message⟩], ?_, ?_⟩,
          h.ordered.drained⟩
      held := h.held.of_same rfl rfl (fun _ => ended_cons.trans (or_iff_right id))
        (fun _ => taken_cons.trans (or_iff_right id))
      answered := ⟨fun caller result => ?_, fun call hcall => ?_, fun slot call hcall => ?_⟩
      lawful := lawful_cons.2 ⟨hlaw, h.lawful⟩ }
  · rw [Array.size_push]
    exact h.callers_send badge message
  · change calls past ++ _ = receipts past ++ _ ++ _
    rw [hsplit, List.append_assoc _ lost]
  · intro hsome
    exact absurd (hreceiver.symm.trans hsome) (by decide)
  · rw [Endpoint.result?_push, occurred_cons, ← h.answered.result?_iff]
    by_cases hcaller : caller = e.results.size
    · simp [Settles, hcaller, hnone, hnew, eq_comm]
    · simp [Settles, hcaller, Ne.symm hcaller]
  · rw [h.ordered.drained hreceiver] at hcall
    cases hcall
  · have hslot := h.ordered.size_received ▸ Endpoint.lt_size_of_call? hcall
    have hle := h.ordered.receipts_initial.length_le
    rw [Endpoint.result?_push, if_neg, h.answered.held slot call hcall]
    rw [← h.ordered.length_calls]
    omega

theorem send (h : Kept e past) {cap : Nat} {badge : Badge} (hcap : e.badge? cap = some badge)
    (message : Message κ) :
    Kept (e.send badge message).2
      (.called cap { caller := (e.send badge message).1, badge, message } :: past) := by
  have hlaw : Law past (.called cap { caller := e.results.size, badge, message }) :=
    ⟨(h.parties.badge?_iff cap badge).1 hcap, h.ordered.length_calls.symm⟩
  cases hreceiver : e.hasReceiver with
  | true =>
    simp only [Endpoint.send, hreceiver, if_true]
    exact h.send_of_receiver hreceiver hlaw
  | false =>
    simp only [Endpoint.send, hreceiver, Bool.false_eq_true, if_false]
    exact h.send_of_no_receiver hreceiver hlaw

theorem getElem?_calls_of_queue (h : Kept e past) {queue : List (Call κ)}
    (hqueue : e.queue = call :: queue) : (calls past)[(receipts past).length]? = some call := by
  obtain ⟨lost, hsplit, -⟩ := h.ordered.split
  rw [hsplit, hqueue, List.append_assoc, List.getElem?_append_right (Nat.le_refl _), Nat.sub_self]
  rfl

theorem receive (h : Kept e past) {queue : List (Call κ)} (hqueue : e.queue = call :: queue) :
    Kept { e with queue, received := e.received.push (some call) }
      (.received e.received.size (some call) :: past) := by
  have hsize := h.ordered.size_received
  have hcall := h.getElem?_calls_of_queue hqueue
  have hcaller : call.caller = (receipts past).length := h.ordered.caller_of_calls hcall
  have hfresh : ∀ slot, Ended slot past ∨ Taken slot past → slot ≠ (receipts past).length :=
    fun slot hknown => Nat.ne_of_lt (h.held.known slot hknown)
  obtain ⟨lost, hsplit, hlost⟩ := h.ordered.split
  refine
    { parties := h.parties.of_caps_eq rfl rfl h.parties.servers_eq nofun nofun nofun
      ordered := ⟨h.ordered.callers, ?_, ⟨lost, ?_, hlost⟩, fun hnone => ?_⟩
      held := ⟨fun slot other => ?_, fun slot hknown => ?_⟩
      answered := ⟨fun caller result => ?_, fun other hother => ?_, fun slot other hother => ?_⟩
      lawful := lawful_cons.2 ⟨⟨hsize, call, rfl, hsize ▸ hcall⟩, h.lawful⟩ }
  · rw [Array.size_push, hsize]
    change _ = (receipts past ++ [call]).length
    rw [List.length_append]
    rfl
  · change calls past = receipts past ++ [call] ++ _ ++ _
    rw [hsplit, hqueue]
    simp
  · rw [h.ordered.drained hnone] at hqueue
    cases hqueue
  · rw [Endpoint.call?_push, hsize, ended_cons, taken_cons]
    change _ ↔ ¬ (False ∨ _) ∧ ∃ sent, (receipts past ++ [call])[slot]? = some sent ∧
      (¬ (False ∨ _) ∧ _ ∨ (False ∨ _) ∧ _)
    simp only [false_or]
    -- the call gets the next slot, and nothing was done with that before
    by_cases hslot : slot = (receipts past).length
    · have hended : ¬ Ended slot past := fun hended => hfresh slot (Or.inl hended) hslot
      have htaken : ¬ Taken slot past := fun htaken => hfresh slot (Or.inr htaken) hslot
      rw [hslot] at hended htaken ⊢
      simp [hended, htaken, eq_comm]
    · have hget : (receipts past ++ [call])[slot]? = (receipts past)[slot]? := by
        rcases Nat.lt_or_gt_of_ne hslot with hlt | hgt
        · exact List.getElem?_append_left hlt
        · rw [List.getElem?_eq_none (Nat.le_of_lt hgt), List.getElem?_eq_none]
          rw [List.length_append]
          exact hgt
      rw [if_neg hslot, h.held.call?_iff, hget]
  · rw [ended_cons, taken_cons] at hknown
    have hlt := h.held.known slot (by simpa [Deed.Ends, Deed.Takes] using hknown)
    exact Nat.lt_of_lt_of_le hlt (List.length_append ▸ Nat.le_add_right ..)
  · refine (h.answered.result?_iff caller result).trans ?_
    rw [occurred_cons]
    exact (or_iff_right id).symm
  · exact h.answered.queued other (hqueue ▸ List.mem_cons_of_mem _ hother)
  · rw [Endpoint.call?_push, hsize] at hother
    split at hother
    · rename_i hslot
      rw [hslot, ← hcaller]
      exact h.answered.queued call (hqueue ▸ List.mem_cons_self)
    · exact h.answered.held slot other hother

theorem takeCap (h : Kept e past) (hcall : e.call? slot = some call) :
    Kept (e.takeCap slot).2 (.took slot (e.takeCap slot).1 :: past) := by
  have hlt := Endpoint.lt_size_of_call? hcall
  obtain ⟨hended, sent, hsent, hform⟩ := (h.held.call?_iff slot call).1 hcall
  rw [Endpoint.takeCap_of_call? hcall]
  refine
    { parties := h.parties.of_caps_eq rfl rfl h.parties.servers_eq nofun nofun nofun
      ordered := h.ordered.of_same rfl rfl rfl (Array.size_setIfInBounds ..) rfl rfl
      held := ⟨fun other found => ?_, fun other hknown => ?_⟩
      answered := ⟨fun caller result => ?_, h.answered.queued, fun other found hfound => ?_⟩
      lawful := lawful_cons.2 ⟨⟨sent, hsent, ?_⟩, h.lawful⟩ }
  · rw [Endpoint.call?_setIfInBounds e hlt, ended_cons, taken_cons]
    change _ ↔ ¬ (False ∨ _) ∧ ∃ sent, (receipts past)[other]? = some sent ∧
      (¬ (slot = other ∨ _) ∧ _ ∨ (slot = other ∨ _) ∧ _)
    by_cases hother : other = slot
    · have hbare : Endpoint.bare call = Endpoint.bare sent := by
        rcases hform with ⟨-, rfl⟩ | ⟨-, rfl⟩ <;> rfl
      simp [hother, hended, hsent, hbare, eq_comm]
    · simp only [if_neg hother, Ne.symm hother, false_or]
      exact h.held.call?_iff other found
  · rw [ended_cons, taken_cons] at hknown
    rcases hknown with (hends | hold) | (rfl | hold)
    · exact hends.elim
    · exact h.held.known other (Or.inl hold)
    · exact (List.getElem?_eq_some_iff.1 hsent).1
    · exact h.held.known other (Or.inr hold)
  · refine (h.answered.result?_iff caller result).trans ?_
    rw [occurred_cons]
    exact (or_iff_right id).symm
  · rw [Endpoint.call?_setIfInBounds e hlt] at hfound
    split at hfound
    · rename_i hother
      exact hother ▸ h.answered.held slot call hcall
    · exact h.answered.held other found hfound
  · rcases hform with ⟨htaken, rfl⟩ | ⟨htaken, rfl⟩
    · exact Or.inl ⟨htaken, rfl⟩
    · exact Or.inr ⟨htaken, rfl⟩

theorem finish (h : Kept e past) (hcall : e.call? slot = some call) {result : CallResult κ}
    (hdeed : deed.Finishes slot result) : Kept (e.finish slot result) (deed :: past) := by
  have hlt := Endpoint.lt_size_of_call? hcall
  obtain ⟨hended, sent, hsent, hform⟩ := (h.held.call?_iff slot call).1 hcall
  have hslot := (List.getElem?_eq_some_iff.1 hsent).1
  have hcaller : call.caller = slot := by
    have hsame : call.caller = sent.caller := by rcases hform with ⟨-, rfl⟩ | ⟨-, rfl⟩ <;> rfl
    rw [hsame, h.ordered.caller_of_receipts hsent]
  have hresults : slot < e.results.size := by
    rw [← h.ordered.length_calls]
    exact Nat.lt_of_lt_of_le hslot h.ordered.receipts_initial.length_le
  have hresult : ∀ caller,
      Endpoint.result? { e with
        received := e.received.setIfInBounds slot none
        results := e.results.setIfInBounds slot (some result) } caller =
      if caller = slot then some result else e.result? caller :=
    Endpoint.result?_settle (e := e) hresults result
  have hheld : ∀ other,
      Endpoint.call? { e with
        received := e.received.setIfInBounds slot none
        results := e.results.setIfInBounds slot (some result) } other =
      if other = slot then none else e.call? other :=
    fun other => Endpoint.call?_setIfInBounds e hlt none
  rw [Endpoint.finish_of_call? hcall, hcaller]
  refine
    { parties := hdeed.parties h.parties rfl rfl rfl
      ordered := h.ordered.of_same hdeed.calls_eq hdeed.receipts_eq rfl
        (Array.size_setIfInBounds ..) (Array.size_setIfInBounds ..) rfl
      held := ⟨fun other found => ?_, fun other hknown => ?_⟩
      answered := ⟨fun caller other => ?_, fun other hother => ?_, fun other found hfound => ?_⟩
      lawful := lawful_cons.2 ⟨?_, h.lawful⟩ }
  · rw [hheld, hdeed.ended_iff, hdeed.taken_iff, hdeed.receipts_eq]
    by_cases hother : other = slot
    · simp [hother]
    · rw [if_neg hother, or_iff_right hother]
      exact h.held.call?_iff other found
  · rw [hdeed.ended_iff, hdeed.taken_iff] at hknown
    rw [hdeed.receipts_eq]
    rcases hknown with (rfl | hold) | hold
    · exact hslot
    · exact h.held.known other (Or.inl hold)
    · exact h.held.known other (Or.inr hold)
  · rw [hresult, occurred_cons, ← h.answered.result?_iff, hdeed.settles_iff h.ordered hslot]
    by_cases hother : caller = slot
    · simp [hother, h.answered.held slot call hcall, eq_comm]
    · simp [hother]
  · have hle := (h.ordered.bounds_of_mem_queue hother).1
    rw [hresult, if_neg (by omega)]
    exact h.answered.queued other hother
  · rw [hheld] at hfound
    by_cases hother : other = slot
    · rw [if_pos hother] at hfound
      cases hfound
    · rw [if_neg hother] at hfound
      rw [hresult, if_neg hother]
      exact h.answered.held other found hfound
  · cases hdeed <;> exact ⟨hslot, hended⟩

/-! ### Events -/

variable {c : Exchange κ}

theorem mint (h : Kept c.endpoint c.history) (badge : Badge) :
    Kept (c.mint badge).endpoint (c.mint badge).history := by
  refine h.quiet trivial rfl rfl rfl rfl (h.parties.mint badge) (fun other hminted => ?_)
    (fun _ _ => id)
  exact Nat.lt_irrefl _ (h.parties.known _ (Or.inl ⟨other, hminted⟩))

theorem dropCap (h : Kept c.endpoint c.history) {cap : Nat}
    (hcap : (c.endpoint.badge? cap).isSome) :
    Kept (c.endpoint.dropCap cap) (.capDropped cap :: c.history) := by
  obtain ⟨badge, hbadge⟩ := Option.isSome_iff_exists.1 hcap
  have howned := (h.parties.badge?_iff cap badge).1 hbadge
  exact h.quiet trivial rfl rfl rfl rfl (h.parties.dropCap cap hcap) ⟨badge, howned⟩
    (fun _ _ => id)

theorem openServer (h : Kept c.endpoint c.history) (hlive : c.endpoint.live = true) :
    Kept { c.endpoint with servers := c.endpoint.servers + 1 } (.opened :: c.history) := by
  have hservers : c.endpoint.servers + 1 = servers (.opened :: c.history) :=
    congrArg (· + 1) h.parties.servers_eq
  refine h.quiet trivial rfl rfl rfl ?_ (h.parties.of_caps_eq rfl rfl hservers nofun nofun nofun)
    (h.parties.live_iff.1 hlive) (fun _ _ => id)
  rw [Endpoint.hasReceiver, Endpoint.hasReceiver, hlive]
  rfl

/-- An endpoint that lost a receiver still has one, or all that was queued is abandoned. -/
theorem loseReceiver (h : Kept e past) (hreceiver : e.hasReceiver = true)
    (hqueue : e'.queue = e.queue) (hreceived : e'.received = e.received)
    (hresults : e'.results = e.results) (hdeed : deed = .closed ∨ deed = .endpointDropped)
    (hparties : Parties e' (deed :: past)) (hlaw : Law past deed) :
    Kept e'.abandonQueue (deed :: past) := by
  cases hlast : e'.hasReceiver with
  | false => exact h.lose hreceiver hlast hqueue hreceived hresults hdeed hparties hlaw
  | true =>
    have hcan := hparties.hasReceiver_iff.1 hlast
    rw [Endpoint.abandonQueue_of_receiver hlast]
    apply h.quiet (by rcases hdeed with rfl | rfl <;> trivial) hqueue hreceived hresults
      (hlast.trans hreceiver.symm) hparties hlaw
    intro caller result hsettles
    rcases hdeed with rfl | rfl <;> exact hsettles.1 hcan

theorem closeServer (h : Kept c.endpoint c.history) (hservers : 0 < c.endpoint.servers) :
    Kept c.endpoint.dropServer (.closed :: c.history) := by
  have hreceiver := Endpoint.hasReceiver_of_servers hservers
  have hleft : c.endpoint.servers - 1 = servers (.closed :: c.history) :=
    congrArg (· - 1) h.parties.servers_eq
  have hparties : Parties { c.endpoint with servers := c.endpoint.servers - 1 }
      (.closed :: c.history) :=
    h.parties.of_caps_eq rfl rfl hleft nofun nofun nofun
  have hlaw : 0 < servers c.history := h.parties.servers_eq ▸ hservers
  exact h.loseReceiver hreceiver rfl rfl rfl (Or.inl rfl) hparties hlaw

theorem dropEndpoint (h : Kept c.endpoint c.history) (hlive : c.endpoint.live = true) :
    Kept c.endpoint.dropEndpoint (.endpointDropped :: c.history) := by
  have hreceiver := Endpoint.hasReceiver_of_live hlive
  have hparties : Parties { c.endpoint with live := false } (.endpointDropped :: c.history) :=
    { live_iff := by simp
      servers_eq := h.parties.servers_eq
      badge?_iff := fun cap badge => by
        refine (h.parties.badge?_iff cap badge).trans ?_
        simp [Owned]
      known := fun cap hknown => h.parties.known cap (by simpa using hknown) }
  exact h.loseReceiver hreceiver rfl rfl rfl (Or.inr rfl) hparties (h.parties.live_iff.1 hlive)

theorem ask (h : Kept c.endpoint c.history) (hservers : 0 < c.endpoint.servers) :
    Kept c.receive.endpoint c.receive.history := by
  have hreceiver := Endpoint.hasReceiver_of_servers hservers
  cases hqueue : c.endpoint.queue with
  | cons call queue =>
    have hfound := Endpoint.call?_push c.endpoint queue call c.endpoint.received.size
    rw [if_pos rfl] at hfound
    simp only [Exchange.receive, Endpoint.receive_cons hqueue, tell, hfound]
    exact h.receive hqueue
  | nil =>
    cases hsender : c.endpoint.hasSender with
    | true =>
      simp only [Exchange.receive, Endpoint.receive_nil hqueue, hsender, if_true]
      exact h
    | false =>
      simp only [Exchange.receive, Endpoint.receive_nil hqueue, hsender, Bool.false_eq_true, if_false]
      have hnone : ¬ CanSend c.history := by
        rw [← h.parties.hasSender_iff, hsender]
        exact Bool.false_ne_true
      have hcalls : calls c.history = receipts c.history := by
        rw [h.ordered.calls_eq hreceiver, hqueue, List.append_nil]
      have hparties : Parties c.endpoint (.refused .endpointClosed :: c.history) :=
        h.parties.of_caps_eq rfl rfl h.parties.servers_eq nofun nofun nofun
      exact h.quiet trivial rfl rfl rfl rfl hparties ⟨rfl, hcalls, hnone⟩ (fun _ _ => id)

theorem handle (h : Kept c.endpoint c.history) (event : Event κ) :
    Kept (c.handle event).endpoint (c.handle event).history := by
  cases event with
  | mint badge | remint cap badge =>
    simp only [Exchange.handle]
    split
    · exact h.mint badge
    · exact h
  | dropCap cap =>
    simp only [Exchange.handle]
    split
    · exact h.dropCap ‹_›
    · exact h
  | openServer =>
    simp only [Exchange.handle]
    split
    · exact h.openServer ‹_›
    · exact h
  | closeServer =>
    simp only [Exchange.handle]
    split
    · exact h.closeServer ‹_›
    · exact h
  | dropEndpoint =>
    simp only [Exchange.handle]
    split
    · exact h.dropEndpoint ‹_›
    · exact h
  | call cap message =>
    simp only [Exchange.handle]
    split
    · exact h.send ‹_› message
    · exact h
  | receive =>
    simp only [Exchange.handle]
    split
    · exact h.ask ‹_›
    · exact h
  | takeCap slot =>
    simp only [Exchange.handle]
    split
    · obtain ⟨call, hcall⟩ := Option.isSome_iff_exists.1 ‹_›
      exact h.takeCap hcall
    · exact h
  | reply slot message =>
    simp only [Exchange.handle]
    split
    · obtain ⟨call, hcall⟩ := Option.isSome_iff_exists.1 ‹_›
      exact h.finish hcall (.replied message)
    · exact h
  | discard slot =>
    simp only [Exchange.handle]
    split
    · obtain ⟨call, hcall⟩ := Option.isSome_iff_exists.1 ‹_›
      exact h.finish hcall .discarded
    · exact h

theorem run (h : Kept c.endpoint c.history) (events : List (Event κ)) :
    Kept (c.run events).endpoint (c.run events).history := by
  induction events generalizing c with
  | nil => exact h
  | cons event events ih => exact ih (h.handle event)

end Kept

/-! ## Once -/

/-- What holds of an exchange at every moment. -/
structure Faithful (c : Exchange κ) : Prop where
  lawful : Lawful Law c.history
  in_order : receipts c.history <+: calls c.history
  numbered : (calls c.history).map Call.caller = List.range (calls c.history).length
  /-- A call returns just what a deed settled for its caller, and is blocked until then. -/
  result?_iff : ∀ caller result, c.endpoint.result? caller = some result ↔
    Occurred (Settles caller result) c.history
  /-- A server is blocked just while nothing is queued and something could still be sent. -/
  blocked_iff : 0 < c.endpoint.servers →
    (c.endpoint.receive = none ↔ calls c.history = receipts c.history ∧ CanSend c.history)
  /-- A server sees what was sent, until the call ends. -/
  call?_iff : ∀ slot call, c.endpoint.call? slot = some call ↔
    ¬ Ended slot c.history ∧ ∃ sent, (receipts c.history)[slot]? = some sent ∧
      (¬ Taken slot c.history ∧ call = sent ∨ Taken slot c.history ∧ call = Endpoint.bare sent)

theorem Kept.faithful {c : Exchange κ} (h : Kept c.endpoint c.history) : c.Faithful where
  lawful := h.lawful
  in_order := h.ordered.receipts_initial
  numbered := by rw [h.ordered.length_calls, h.ordered.callers]
  result?_iff := h.answered.result?_iff
  blocked_iff hservers := by
    have hreceiver := Endpoint.hasReceiver_of_servers hservers
    rw [← h.parties.hasSender_iff, h.ordered.calls_eq hreceiver]
    cases hqueue : c.endpoint.queue with
    | cons call queue => simp [Endpoint.receive_cons hqueue]
    | nil => simp [Endpoint.receive_nil hqueue]
  call?_iff := h.held.call?_iff

/-- Whatever is done with an endpoint, and in whatever order, calls are delivered once and answered
once. -/
theorem delivered_once (events : List (Event κ)) : (({} : Exchange κ).run events).Faithful :=
  Kept.faithful (kept_start.run (c := {}) events)

end Exchange

end Osal
