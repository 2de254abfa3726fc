import Osal.Endpoint

/-!
# The slots of an endpoint

What each operation of an endpoint does to the calls that are held, to the results of the callers and
to the capabilities.
-/

namespace Osal

namespace Endpoint

variable {κ : Type} {e : Endpoint κ} {k j caller : Nat} {call : Call κ} {result : CallResult κ}

/-! ## Capabilities -/

@[simp] theorem badge?_mint (e : Endpoint κ) (badge : Badge) (cap : Nat) :
    (e.mint badge).2.badge? cap = if cap = e.caps.size then some badge else e.badge? cap := by
  simp only [mint, badge?, Array.getElem?_push]
  split <;> rfl

@[simp] theorem badge?_dropCap (e : Endpoint κ) (cap other : Nat) :
    (e.dropCap cap).badge? other = if other = cap then none else e.badge? other := by
  simp only [dropCap, badge?, Array.getElem?_setIfInBounds, eq_comm (a := cap)]
  split
  · split <;> rfl
  · rfl

theorem lt_size_of_badge? {cap : Nat} {badge : Badge} (h : e.badge? cap = some badge) :
    cap < e.caps.size := by
  apply Nat.lt_of_not_le
  intro hle
  rw [badge?, Array.getElem?_eq_none hle] at h
  cases h

theorem any_caps_iff : e.caps.any Option.isSome = true ↔ ∃ cap badge, e.badge? cap = some badge := by
  rw [Array.any_eq_true]
  constructor
  · rintro ⟨cap, hlt, hsome⟩
    obtain ⟨badge, hbadge⟩ := Option.isSome_iff_exists.1 hsome
    exact ⟨cap, badge, by rw [badge?, Array.getElem?_eq_getElem hlt, hbadge]; rfl⟩
  · rintro ⟨cap, badge, hbadge⟩
    have hlt := lt_size_of_badge? hbadge
    rw [badge?, Array.getElem?_eq_getElem hlt] at hbadge
    exact ⟨cap, hlt, by rw [show e.caps[cap] = some badge from hbadge]; rfl⟩

/-! ## Who is left -/

@[simp] theorem hasReceiver_of_live (h : e.live = true) : e.hasReceiver = true := by
  rw [hasReceiver, h, Bool.true_or]

@[simp] theorem hasReceiver_of_servers (h : 0 < e.servers) : e.hasReceiver = true := by
  rw [hasReceiver, decide_eq_true h, Bool.or_true]

@[simp] theorem hasSender_of_live (h : e.live = true) : e.hasSender = true := by
  rw [hasSender, h, Bool.true_or]

/-! ## Held calls -/

theorem lt_size_of_call? (h : e.call? k = some call) : k < e.received.size := by
  apply Nat.lt_of_not_le
  intro hle
  rw [call?, Array.getElem?_eq_none hle] at h
  cases h

@[simp] theorem call?_setIfInBounds (e : Endpoint κ) (hk : k < e.received.size) (held : Option (Call κ)) :
    call? { e with received := e.received.setIfInBounds k held } j =
      if j = k then held else e.call? j := by
  simp only [call?, Array.getElem?_setIfInBounds, eq_comm (a := k), if_pos hk]
  split <;> rfl

theorem receive_cons {queue : List (Call κ)} (hqueue : e.queue = call :: queue) :
    e.receive =
      some (.ok e.received.size, { e with queue, received := e.received.push (some call) }) := by
  rw [receive, hqueue]

theorem receive_nil (hqueue : e.queue = []) :
    e.receive = if e.hasSender then none else some (.error .endpointClosed, e) := by
  rw [receive, hqueue]

@[simp] theorem call?_push (e : Endpoint κ) (queue : List (Call κ)) (call : Call κ) (j : Nat) :
    call? { e with queue, received := e.received.push (some call) } j =
      if j = e.received.size then some call else e.call? j := by
  simp only [call?, Array.getElem?_push]
  split <;> rfl

/-- A call without the capability that came with it. -/
def bare (call : Call κ) : Call κ := { call with message := call.message.dropCap }

theorem takeCap_of_call? (h : e.call? k = some call) :
    e.takeCap k = (call.message.cap,
      { e with received := e.received.setIfInBounds k (some (bare call)) }) := by
  rw [takeCap, h]
  rfl

theorem finish_of_call? (h : e.call? k = some call) (result : CallResult κ) :
    e.finish k result =
      { e with
        received := e.received.setIfInBounds k none
        results := e.results.setIfInBounds call.caller (some result) } := by
  rw [finish, h]
  rfl

/-! ## Results -/

theorem result?_of_size_le (h : e.results.size ≤ caller) : e.result? caller = none := by
  rw [result?, Array.getElem?_eq_none h]
  rfl

theorem result?_push (e : Endpoint κ) (queue : List (Call κ)) (last : Option (CallResult κ))
    (caller : Nat) :
    result? { e with queue, results := e.results.push last } caller =
      if caller = e.results.size then last else e.result? caller := by
  simp only [result?, Array.getElem?_push]
  split <;> rfl

@[simp] theorem result?_push_none (e : Endpoint κ) (queue : List (Call κ)) (caller : Nat) :
    result? { e with queue, results := e.results.push none } caller = e.result? caller := by
  rw [result?_push]
  split
  · rename_i hcaller
    rw [hcaller, result?_of_size_le (Nat.le_refl _)]
  · rfl

@[simp] theorem result?_settle (hk : k < e.results.size) (result : CallResult κ) (caller : Nat) :
    (e.settle k result).result? caller = if caller = k then some result else e.result? caller := by
  simp only [settle, result?, Array.getElem?_setIfInBounds, eq_comm (a := k), if_pos hk]
  split <;> rfl

theorem exists_results_of_foldl_settle (result : CallResult κ) (queue : List (Call κ))
    (e : Endpoint κ) (hsize : ∀ call ∈ queue, call.caller < e.results.size) :
    ∃ results, queue.foldl (fun e call => e.settle call.caller result) e = { e with results } ∧
      results.size = e.results.size ∧
      ∀ caller, result? { e with results } caller =
        if caller ∈ queue.map Call.caller then some result else e.result? caller := by
  induction queue generalizing e with
  | nil => exact ⟨e.results, rfl, rfl, fun caller => rfl⟩
  | cons call queue ih =>
    have hcall := hsize call List.mem_cons_self
    have hsame : (e.settle call.caller result).results.size = e.results.size := by
      rw [settle, Array.size_setIfInBounds]
    obtain ⟨results, hfold, hresults, hget⟩ := ih (e.settle call.caller result) (by
      intro other hother
      rw [hsame]
      exact hsize other (List.mem_cons_of_mem _ hother))
    refine ⟨results, hfold, hresults.trans hsame, fun caller => ?_⟩
    refine (hget caller).trans ?_
    rw [result?_settle hcall, List.map_cons]
    by_cases hmem : caller ∈ queue.map Call.caller
    · rw [if_pos hmem, if_pos (List.mem_cons_of_mem _ hmem)]
    · simp only [List.mem_cons, hmem, or_false, if_false]

@[simp] theorem abandonQueue_of_receiver (h : e.hasReceiver = true) : e.abandonQueue = e := by
  rw [abandonQueue, if_pos h]

theorem exists_results_of_abandonQueue (h : e.hasReceiver = false)
    (hsize : ∀ call ∈ e.queue, call.caller < e.results.size) :
    ∃ results, e.abandonQueue = { e with queue := [], results } ∧
      results.size = e.results.size ∧
      ∀ caller, e.abandonQueue.result? caller =
        if caller ∈ e.queue.map Call.caller then some (.error .callerAbandoned)
        else e.result? caller := by
  obtain ⟨results, hfold, hresults, hget⟩ :=
    exists_results_of_foldl_settle (.error .callerAbandoned) e.queue { e with queue := [] } hsize
  have habandon : e.abandonQueue = { e with queue := [], results } := by
    rw [abandonQueue, if_neg (by simp [h])]
    exact hfold
  refine ⟨results, habandon, hresults, fun caller => ?_⟩
  rw [habandon]
  exact hget caller

end Endpoint

end Osal
