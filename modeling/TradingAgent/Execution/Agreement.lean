/-
Agreement on one approval request. Three copies of its status are written by callbacks, by API calls, by
the timeout and by the waiting run. `Consistent` ties every copy to a response that was accepted; where
all accepted responses say the same, the copies therefore agree, in every state after the run returned.
-/
import TradingAgent.Execution.Modified

namespace TradingAgent

open Wp Execution ApprovalManager

variable {env : Env}

/-! ## The invariant -/

/-- The request has a row. -/
def Present (requestId : RequestId) (w : World) : Prop := ∃ row, w.approvals.get? requestId = some row

/-- The request has a row with a final status. -/
def Settled (requestId : RequestId) (w : World) : Prop :=
  ∃ row status, w.approvals.get? requestId = some row ∧ row.status = .settled status

/-- A response with the status was accepted since `w₀`. -/
def HasAccepted (requestId : RequestId) (w₀ w : World) (status : ApprovalStatus) : Prop :=
  .accepted requestId status ∈ w₀.since w

/-- Every copy of the status of the request comes from an accepted response, and the row of the request
and the row of its order are written together. -/
structure Consistent (requestId : RequestId) (orderId : ℕ) (w₀ w : World) : Prop where
  extends_ : w₀.trace <+: w.trace
  order : ∃ row, w.orders.get? orderId = some row
  approvals : ∀ requestId' row, w.approvals.get? requestId' = some row →
    (row.orderId = orderId ↔ requestId' = requestId)
  apiCalls : ∀ call ∈ w.apiCalls, (call.orderId = orderId ↔ call.requestId = requestId)
  written : ∀ row status, w.approvals.get? requestId = some row → row.status = .settled status →
    (w.orders.get? orderId).map (·.approvalStatus) = some status ∧ HasAccepted requestId w₀ w status
  called : ∀ call ∈ w.apiCalls, call.requestId = requestId → HasAccepted requestId w₀ w call.body.newStatus
  tapped : ∀ cb ∈ w.callbacks, cb.requestId = requestId → HasAccepted requestId w₀ w cb.answer.status
  -- a callback leaves its database phase only with its transaction committed
  committed : ∀ cb ∈ w.callbacks, cb.requestId = requestId → cb.phase ≠ .database → Settled requestId w
  event : w.pendingEvents.get? requestId = some true → Settled requestId w ∧
    ∃ status, w.pendingResults.get? requestId = some status ∧ HasAccepted requestId w₀ w status
  present : Present requestId w ∨
    (w.pendingEvents.get? requestId = none ∧ ∀ cb ∈ w.callbacks, cb.requestId ≠ requestId)

section Steps

variable {requestId : RequestId} {orderId : ℕ} {w₀ w : World}

theorem Settled.present (h : Settled requestId w) : Present requestId w := by
  obtain ⟨row, _, hrow, _⟩ := h
  exact ⟨row, hrow⟩

theorem Consistent.log (h : Consistent requestId orderId w₀ w) (e : Event) :
    Consistent requestId orderId w₀ (w.log e) := by
  have hmono : ∀ {status}, HasAccepted requestId w₀ w status → HasAccepted requestId w₀ (w.log e) status :=
    fun ha => mem_since_mono (List.prefix_append ..) ha
  refine ⟨h.extends_.trans (List.prefix_append ..), h.order, h.approvals, h.apiCalls, fun row status hrow hs => ?_,
    fun call hcall hid => hmono (h.called call hcall hid), fun cb hcb hid => hmono (h.tapped cb hcb hid),
    h.committed, fun hset => ?_, h.present⟩
  · obtain ⟨horder, ha⟩ := h.written row status hrow hs
    exact ⟨horder, hmono ha⟩
  · obtain ⟨hsettled, status, hresult, ha⟩ := h.event hset
    exact ⟨hsettled, status, hresult, hmono ha⟩

theorem hasAccepted_log (hextends : w₀.trace <+: w.trace) (status : ApprovalStatus) :
    HasAccepted requestId w₀ (w.log (.accepted requestId status)) status := by
  unfold HasAccepted
  rw [since_log hextends]
  simp

/-- A callback moves on; out of its database phase only with the request settled. -/
theorem Consistent.setPhase (h : Consistent requestId orderId w₀ w) {i : ℕ} {cb : Callback} {phase : CallbackPhase}
    (hcb : w.callbacks[i]? = some cb) (hsettled : cb.requestId = requestId → Settled requestId w) :
    Consistent requestId orderId w₀ (w.setPhase i cb phase) := by
  have hmem : ∀ cb' ∈ (w.setPhase i cb phase).callbacks, cb' ∈ w.callbacks ∨ cb' = { cb with phase } :=
    fun cb' hcb' => List.mem_or_eq_of_mem_set hcb'
  have hcb' : cb ∈ w.callbacks := List.mem_of_getElem? hcb
  refine ⟨h.extends_, h.order, h.approvals, h.apiCalls, h.written, h.called, fun cb' hmem' hid => ?_,
    fun cb' hmem' hid hphase => ?_, h.event, h.present.imp_right fun hnone => ⟨hnone.1, fun cb' hmem' => ?_⟩⟩
  · rcases hmem cb' hmem' with hold | rfl
    · exact h.tapped cb' hold hid
    · exact h.tapped cb hcb' hid
  · rcases hmem cb' hmem' with hold | rfl
    · exact h.committed cb' hold hid hphase
    · exact hsettled hid
  · rcases hmem cb' hmem' with hold | rfl
    · exact hnone.2 cb' hold
    · exact hnone.2 cb hcb'

/-- After the transaction of a response of the request, the request is settled. -/
theorem settled_writeAnswer (hpresent : Present requestId w) (orderId : ℕ) (status : ApprovalStatus) (q : Option ℤ)
    (reason : String) : Settled requestId (w.writeAnswer requestId orderId status q reason) := by
  obtain ⟨row, hrow⟩ := hpresent
  refine ⟨{ row with status := .settled status, responseReason := reason
                     modifiedQuantity := q.or row.modifiedQuantity }, status, ?_, rfl⟩
  unfold World.writeAnswer
  rw [Dict.get?_modify, if_pos rfl, hrow]
  rfl

/-- A transaction never unsettles the request. -/
theorem Settled.writeAnswer (h : Settled requestId w) (requestId' : RequestId) (orderId : ℕ) (status : ApprovalStatus)
    (q : Option ℤ) (reason : String) : Settled requestId (w.writeAnswer requestId' orderId status q reason) := by
  by_cases hid : requestId' = requestId
  · subst hid
    exact settled_writeAnswer h.present orderId status q reason
  · obtain ⟨row, status', hrow, hs⟩ := h
    refine ⟨row, status', ?_, hs⟩
    unfold World.writeAnswer
    rw [Dict.get?_modify, if_neg (Ne.symm hid), hrow]

theorem Present.writeAnswer (h : Present requestId w) (requestId' : RequestId) (orderId : ℕ) (status : ApprovalStatus)
    (q : Option ℤ) (reason : String) : Present requestId (w.writeAnswer requestId' orderId status q reason) := by
  by_cases hid : requestId' = requestId
  · subst hid
    exact (settled_writeAnswer h orderId status q reason).present
  · obtain ⟨row, hrow⟩ := h
    refine ⟨row, ?_⟩
    unfold World.writeAnswer
    rw [Dict.get?_modify, if_neg (Ne.symm hid), hrow]

/-- The transaction of an accepted response, for this request or for another. -/
theorem Consistent.writeAnswer (h : Consistent requestId orderId w₀ w) {requestId' : RequestId} {orderId' : ℕ}
    (horder : orderId' = orderId ↔ requestId' = requestId) {status : ApprovalStatus} (q : Option ℤ) (reason : String)
    (haccepted : requestId' = requestId → HasAccepted requestId w₀ w status) :
    Consistent requestId orderId w₀ (w.writeAnswer requestId' orderId' status q reason) := by
  have hmono : ∀ {status'}, HasAccepted requestId w₀ w status' →
      HasAccepted requestId w₀ (w.writeAnswer requestId' orderId' status q reason) status' :=
    fun ha => mem_since_mono (List.prefix_append ..) ha
  refine ⟨h.extends_.trans (List.prefix_append ..), ?_, fun requestId'' row hrow => ?_, h.apiCalls,
    fun row status' hrow hs => ?_, fun call hcall hid => hmono (h.called call hcall hid),
    fun cb hcb hid => hmono (h.tapped cb hcb hid),
    fun cb hcb hid hphase => (h.committed cb hcb hid hphase).writeAnswer _ _ _ _ _, fun hset => ?_,
    h.present.imp_left fun hp => hp.writeAnswer _ _ _ _ _⟩
  · obtain ⟨row, hrow⟩ := h.order
    unfold World.writeAnswer
    simp only [Table.get?_update]
    split
    · rename_i heq
      subst heq
      rw [hrow]
      exact ⟨_, rfl⟩
    · exact ⟨row, hrow⟩
  · obtain ⟨row', hrow', heq⟩ := approvals_writeAnswer hrow
    rw [heq]
    exact h.approvals requestId'' row' hrow'
  · unfold World.writeAnswer at hrow ⊢
    rw [Dict.get?_modify] at hrow
    rw [Table.get?_update]
    by_cases hid : requestId' = requestId
    · -- both rows are written with the status of this response
      rw [if_pos hid.symm] at hrow
      obtain ⟨row', _, rfl⟩ := Option.map_eq_some_iff.1 hrow
      obtain ⟨o, ho⟩ := h.order
      cases hs
      rw [if_pos (horder.2 hid).symm, horder.2 hid, ho]
      exact ⟨rfl, hmono (haccepted hid)⟩
    · rw [if_neg (Ne.symm hid)] at hrow
      rw [if_neg fun heq => hid (horder.1 heq.symm)]
      obtain ⟨ho, ha⟩ := h.written row status' hrow hs
      exact ⟨ho, hmono ha⟩
  · obtain ⟨hsettled, status', hresult, ha⟩ := h.event hset
    exact ⟨hsettled.writeAnswer _ _ _ _ _, status', hresult, hmono ha⟩

/-- The end of a callback. -/
theorem Consistent.signal (h : Consistent requestId orderId w₀ w) {i : ℕ} {cb : Callback}
    (hcb : w.callbacks[i]? = some cb) (hphase : cb.phase = .signal) :
    Consistent requestId orderId w₀ (w.callbackSignal i cb) := by
  have hmem : cb ∈ w.callbacks := List.mem_of_getElem? hcb
  have hlog := h.log (.handled cb.requestId cb.action)
  refine ⟨hlog.extends_, hlog.order, hlog.approvals, hlog.apiCalls, hlog.written, hlog.called,
    fun cb' hcb' => hlog.tapped cb' (List.mem_of_mem_eraseIdx hcb'),
    fun cb' hcb' => hlog.committed cb' (List.mem_of_mem_eraseIdx hcb'), fun hset => ?_,
    hlog.present.imp_right fun hnone => ⟨?_, fun cb' hcb' => hnone.2 cb' (List.mem_of_mem_eraseIdx hcb')⟩⟩
  · by_cases hid : cb.requestId = requestId
    · refine ⟨h.committed cb hmem hid (by rw [hphase]; simp), cb.answer.status, ?_, hlog.tapped cb hmem hid⟩
      simp only [World.callbackSignal, hid, Dict.get?_set_self]
    · simp only [World.callbackSignal, Dict.get?_modify, if_neg (Ne.symm hid)] at hset
      obtain ⟨hsettled, status, hresult, ha⟩ := hlog.event hset
      refine ⟨hsettled, status, ?_, ha⟩
      simp only [World.callbackSignal]
      rw [Dict.get?_set_ne _ _ (Ne.symm hid)]
      exact hresult
  · simp only [World.callbackSignal, Dict.get?_modify]
    rw [if_neg (Ne.symm (hnone.2 cb hmem))]
    exact hnone.1

/-- A press that the manager takes on, while it waits for the request. -/
theorem Consistent.tap (h : Consistent requestId orderId w₀ w) {cb : Callback} (hphase : cb.phase = .database)
    (hpending : w.pendingEvents.contains cb.requestId = true) :
    Consistent requestId orderId w₀ { w with
      callbacks := w.callbacks ++ [cb]
      trace := w.trace ++ [.accepted cb.requestId cb.answer.status] } := by
  have hlog := h.log (.accepted cb.requestId cb.answer.status)
  refine ⟨hlog.extends_, hlog.order, hlog.approvals, hlog.apiCalls, hlog.written, hlog.called,
    fun cb' hcb' hid => ?_, fun cb' hcb' hid hp => ?_, hlog.event,
    hlog.present.imp_right fun hnone => ⟨hnone.1, fun cb' hcb' => ?_⟩⟩
  · rcases List.mem_append.1 hcb' with hold | hnew
    · exact hlog.tapped cb' hold hid
    · rw [List.mem_singleton] at hnew
      subst hnew
      rw [← hid]
      exact hasAccepted_log h.extends_ cb'.answer.status
  · rcases List.mem_append.1 hcb' with hold | hnew
    · exact hlog.committed cb' hold hid hp
    · rw [List.mem_singleton] at hnew
      subst hnew
      exact absurd hphase hp
  · rcases List.mem_append.1 hcb' with hold | hnew
    · exact hnone.2 cb' hold
    · -- a request without an event is not one that the manager waits for
      rw [List.mem_singleton] at hnew
      subst hnew
      rintro rfl
      obtain ⟨b, hb⟩ := (Dict.contains_iff _ _).1 hpending
      have hnone' : w.pendingEvents.get? cb'.requestId = none := hnone.1
      rw [hb] at hnone'
      cases hnone'

/-- An answer that the API takes on. -/
theorem Consistent.respond (h : Consistent requestId orderId w₀ w) {row : ApprovalRequestDB} {call : ApiCall}
    (hrow : w.approvals.get? call.requestId = some row) (horder : call.orderId = row.orderId) :
    Consistent requestId orderId w₀ { w with
      apiCalls := w.apiCalls ++ [call]
      trace := w.trace ++ [.accepted call.requestId call.body.newStatus] } := by
  have hlog := h.log (.accepted call.requestId call.body.newStatus)
  refine ⟨hlog.extends_, hlog.order, hlog.approvals, fun call' hcall' => ?_, hlog.written,
    fun call' hcall' hid => ?_, hlog.tapped, hlog.committed, hlog.event, hlog.present⟩
  · rcases List.mem_append.1 hcall' with hold | hnew
    · exact h.apiCalls call' hold
    · rw [List.mem_singleton] at hnew
      subst hnew
      rw [horder]
      exact h.approvals _ row hrow
  · rcases List.mem_append.1 hcall' with hold | hnew
    · exact hlog.called call' hold hid
    · rw [List.mem_singleton] at hnew
      subst hnew
      rw [← hid]
      exact hasAccepted_log h.extends_ call'.body.newStatus

/-- The API is done with an answer. -/
theorem Consistent.eraseCall (h : Consistent requestId orderId w₀ w) (i : ℕ) :
    Consistent requestId orderId w₀ { w with apiCalls := w.apiCalls.eraseIdx i } :=
  ⟨h.extends_, h.order, h.approvals, fun c hc => h.apiCalls c (List.mem_of_mem_eraseIdx hc), h.written,
    fun c hc => h.called c (List.mem_of_mem_eraseIdx hc), h.tapped, h.committed, h.event, h.present⟩

/-- A step whose database write succeeds keeps the invariant. -/
theorem Consistent.step (h : Consistent requestId orderId w₀ w) {e : Step} (he : e.Commits) :
    Consistent requestId orderId w₀ (w.step e) := by
  have hmove := step_move w e
  generalize w.step e = w' at hmove
  cases hmove with
  | idle => exact h
  | tap cb hphase hpending => exact h.tap hphase hpending
  | fail i cb hcb hphase hfail =>
    refine h.setPhase hcb fun hid => ?_
    rcases hfail with hno | hnone
    · exact absurd he hno
    · rcases h.present with ⟨row, hrow⟩ | ⟨_, hnone'⟩
      · rw [hid, hrow] at hnone
        cases hnone
      · exact absurd hid (hnone' cb (List.mem_of_getElem? hcb))
  | commit i cb row hcb hphase hrow =>
    have hmem := List.mem_of_getElem? hcb
    have hwrite := h.writeAnswer (h.approvals cb.requestId row hrow) cb.answer.modifiedQuantity
      cb.answer.responseReason fun hid => h.tapped cb hmem hid
    exact hwrite.setPhase hcb fun hid => by
      rw [hid] at hrow ⊢
      exact settled_writeAnswer ⟨row, hrow⟩ _ _ _ _
  | next i cb phase hcb hphase _ =>
    exact h.setPhase hcb fun hid => h.committed cb (List.mem_of_getElem? hcb) hid hphase
  | signal i cb hcb hphase => exact h.signal hcb hphase
  | respond row call hrow hpending horder => exact h.respond hrow horder
  | respondFail i call => exact h.eraseCall i
  | respondCommit i call hcall =>
    have hmem := List.mem_of_getElem? hcall
    exact (h.eraseCall i).writeAnswer (h.apiCalls call hmem) _ _ fun hid => h.called call hmem hid

/-! ## The writes of the manager -/

/-- The writes of the manager that leave the statuses alone: the requests keep their orders and their
statuses, and a set event is one that was set before, with its result. -/
theorem Consistent.of_manager (h : Consistent requestId orderId w₀ w) {w' : World} (hpresent : Present requestId w)
    (htrace : w'.trace = w.trace) (horders : w'.orders = w.orders) (hcallbacks : w'.callbacks = w.callbacks)
    (hcalls : w'.apiCalls = w.apiCalls)
    (hrows : ∀ requestId', (w'.approvals.get? requestId').map (fun row => (row.orderId, row.status)) =
      (w.approvals.get? requestId').map (fun row => (row.orderId, row.status)))
    (hevent : w'.pendingEvents.get? requestId = some true →
      w.pendingEvents.get? requestId = some true ∧ w'.pendingResults.get? requestId = w.pendingResults.get? requestId) :
    Consistent requestId orderId w₀ w' ∧ Present requestId w' := by
  have haccepted : ∀ {status}, HasAccepted requestId w₀ w status → HasAccepted requestId w₀ w' status :=
    fun ha => mem_since_mono (htrace ▸ List.prefix_refl _) ha
  have hsame : ∀ {requestId' row}, w'.approvals.get? requestId' = some row →
      ∃ row', w.approvals.get? requestId' = some row' ∧ row'.orderId = row.orderId ∧ row'.status = row.status := by
    intro requestId' row hrow
    have := hrows requestId'
    rw [hrow, Option.map_some] at this
    obtain ⟨row', hrow', heq⟩ := Option.map_eq_some_iff.1 this.symm
    exact ⟨row', hrow', congrArg Prod.fst heq, congrArg Prod.snd heq⟩
  have hback : ∀ {row}, w.approvals.get? requestId = some row →
      ∃ row', w'.approvals.get? requestId = some row' ∧ row'.status = row.status := by
    intro row hrow
    have := hrows requestId
    rw [hrow, Option.map_some] at this
    obtain ⟨row', hrow', heq⟩ := Option.map_eq_some_iff.1 this
    exact ⟨row', hrow', congrArg Prod.snd heq⟩
  have hpresent' : Present requestId w' := by
    obtain ⟨row, hrow⟩ := hpresent
    obtain ⟨row', hrow', _⟩ := hback hrow
    exact ⟨row', hrow'⟩
  have hsettled : Settled requestId w → Settled requestId w' := by
    rintro ⟨row, status, hrow, hs⟩
    obtain ⟨row', hrow', heq⟩ := hback hrow
    exact ⟨row', status, hrow', heq.trans hs⟩
  refine ⟨⟨htrace ▸ h.extends_, horders ▸ h.order, fun requestId' row hrow => ?_, hcalls ▸ h.apiCalls,
    fun row status hrow hs => ?_, fun call hcall hid => haccepted (h.called call (hcalls ▸ hcall) hid),
    fun cb hcb hid => haccepted (h.tapped cb (hcallbacks ▸ hcb) hid),
    fun cb hcb hid hphase => hsettled (h.committed cb (hcallbacks ▸ hcb) hid hphase), fun hset => ?_, .inl hpresent'⟩,
    hpresent'⟩
  · obtain ⟨row', hrow', heq, _⟩ := hsame hrow
    rw [← heq]
    exact h.approvals requestId' row' hrow'
  · obtain ⟨row', hrow', _, heq⟩ := hsame hrow
    obtain ⟨horder, ha⟩ := h.written row' status hrow' (heq.trans hs)
    exact ⟨horders ▸ horder, haccepted ha⟩
  · obtain ⟨hset', hresults⟩ := hevent hset
    obtain ⟨hs, status, hresult, ha⟩ := h.event hset'
    exact ⟨hsettled hs, status, hresults.trans hresult, haccepted ha⟩

/-- The request gets its row. -/
theorem Consistent.insert (h : Consistent requestId orderId w₀ w) (hnew : w.approvals.get? requestId = none)
    {row : ApprovalRequestDB} (hid : row.orderId = orderId) (hpending : row.status = .pending) :
    Consistent requestId orderId w₀ { w with approvals := w.approvals.set requestId row } := by
  have hnot : ¬ Settled requestId w := fun ⟨_, _, hrow, _⟩ => by rw [hnew] at hrow; cases hrow
  refine ⟨h.extends_, h.order, fun requestId' row' hrow' => ?_, h.apiCalls, fun row' status hrow' hs => ?_,
    h.called, h.tapped, fun cb hcb hid hphase => absurd (h.committed cb hcb hid hphase) hnot,
    fun hset => absurd (h.event hset).1 hnot, .inl ⟨row, Dict.get?_set_self _ _ _⟩⟩
  · rw [Dict.get?_set] at hrow'
    split at hrow'
    · rename_i heq
      cases hrow'
      exact iff_of_true hid heq
    · exact h.approvals requestId' row' hrow'
  · rw [Dict.get?_set_self] at hrow'
    cases hrow'
    rw [hpending] at hs
    cases hs

/-- The timeout is written to both rows. -/
theorem Consistent.timeout (h : Consistent requestId orderId w₀ w) (hpresent : Present requestId w)
    (haccepted : HasAccepted requestId w₀ w .timeout) :
    Consistent requestId orderId w₀ { w with
      approvals := w.approvals.modify requestId (fun r => { r with status := .settled .timeout })
      orders := w.orders.update orderId (fun o => { o with approvalStatus := .timeout }) } ∧
    Settled requestId { w with
      approvals := w.approvals.modify requestId (fun r => { r with status := .settled .timeout })
      orders := w.orders.update orderId (fun o => { o with approvalStatus := .timeout }) } := by
  obtain ⟨row, hrow⟩ := hpresent
  obtain ⟨o, ho⟩ := h.order
  have hsettled : Settled requestId { w with
      approvals := w.approvals.modify requestId (fun r => { r with status := .settled .timeout })
      orders := w.orders.update orderId (fun o => { o with approvalStatus := .timeout }) } := by
    refine ⟨{ row with status := .settled .timeout }, .timeout, ?_, rfl⟩
    rw [Dict.get?_modify, if_pos rfl, hrow]
    rfl
  refine ⟨⟨h.extends_, ⟨{ o with approvalStatus := .timeout }, ?_⟩, fun requestId' row' hrow' => ?_, h.apiCalls,
    fun row' status hrow' hs => ?_, h.called, h.tapped, fun _ _ _ _ => hsettled,
    fun hset => ⟨hsettled, (h.event hset).2⟩, .inl hsettled.present⟩, hsettled⟩
  · rw [Table.get?_update, if_pos rfl, ho]
    rfl
  · obtain ⟨row'', hrow'', heq⟩ := approvals_modify w.approvals (fun _ => by rfl) hrow'
    rw [heq]
    exact h.approvals requestId' row'' hrow''
  · rw [Dict.get?_modify, if_pos rfl, hrow, Option.map_some, Option.some.injEq] at hrow'
    subst hrow'
    cases hs
    rw [Table.get?_update, if_pos rfl, ho]
    exact ⟨rfl, haccepted⟩

end Steps

/-! ## The manager -/

/-- The status on which the manager settled was accepted, and both rows are written. -/
structure SettledOn (requestId : RequestId) (orderId : ℕ) (w₀ : World) (status : ApprovalStatus) (w : World) :
    Prop where
  consistent : Consistent requestId orderId w₀ w
  settled : Settled requestId w
  accepted : HasAccepted requestId w₀ w status

/-- How the wait ends: only a timeout leaves the rows still to be written. -/
structure WaitedFor (requestId : RequestId) (orderId : ℕ) (w₀ : World) (status : ApprovalStatus) (w : World) :
    Prop where
  consistent : Consistent requestId orderId w₀ w
  present : Present requestId w
  accepted : HasAccepted requestId w₀ w status
  settled : status ≠ .timeout → Settled requestId w

section Manager

variable {requestId : RequestId} {orderId : ℕ} {w₀ w : World} {status : ApprovalStatus}

theorem Present.step (h : Present requestId w) (e : Step) : Present requestId (w.step e) := by
  have hmove := step_move w e
  generalize w.step e = w' at hmove
  cases hmove with
  | commit i cb row => exact Present.writeAnswer (w := w.setPhase i cb .redis) h _ _ _ _ _
  | respondCommit i call => exact Present.writeAnswer (w := { w with apiCalls := w.apiCalls.eraseIdx i }) h _ _ _ _ _
  | _ => exact h

theorem Settled.step (h : Settled requestId w) (e : Step) : Settled requestId (w.step e) := by
  have hmove := step_move w e
  generalize w.step e = w' at hmove
  cases hmove with
  | commit i cb row => exact Settled.writeAnswer (w := w.setPhase i cb .redis) h _ _ _ _ _
  | respondCommit i call => exact Settled.writeAnswer (w := { w with apiCalls := w.apiCalls.eraseIdx i }) h _ _ _ _ _
  | _ => exact h

theorem HasAccepted.step (h : HasAccepted requestId w₀ w status) (e : Step) :
    HasAccepted requestId w₀ (w.step e) status := mem_since_mono (step_frame w e).extends_ h

theorem SettledOn.step (h : SettledOn requestId orderId w₀ status w) {e : Step} (he : e.Commits) :
    SettledOn requestId orderId w₀ status (w.step e) :=
  ⟨h.consistent.step he, h.settled.step e, h.accepted.step e⟩

theorem WaitedFor.step (h : WaitedFor requestId orderId w₀ status w) {e : Step} (he : e.Commits) :
    WaitedFor requestId orderId w₀ status (w.step e) :=
  ⟨h.consistent.step he, h.present.step e, h.accepted.step e, fun hne => (h.settled hne).step e⟩

/-- An event that no response logs leaves the rows alone. -/
theorem WaitedFor.log (h : WaitedFor requestId orderId w₀ status w) (e : Event) :
    WaitedFor requestId orderId w₀ status (w.log e) :=
  ⟨h.consistent.log e, h.present, mem_since_mono (List.prefix_append ..) h.accepted, h.settled⟩

/-- The end of the wait: a result comes from a handled callback, anything else counts as a timeout that
is accepted here. -/
theorem Consistent.endWait (h : Consistent env.requestId orderId w₀ w) (hpresent : Present env.requestId w) :
    WaitedFor env.requestId orderId w₀ (endWait env w).1 (endWait env w).2 := by
  unfold ApprovalManager.endWait
  split
  · rename_i hset
    obtain ⟨hsettled, status, hresult, ha⟩ := h.event hset.1
    simp only [hresult, Option.getD_some]
    exact WaitedFor.log ⟨h, hpresent, ha, fun _ => hsettled⟩ _
  · exact WaitedFor.log ⟨h.log _, hpresent, hasAccepted_log h.extends_ .timeout, fun hne => absurd rfl hne⟩ _

/-- With all transactions committing, the manager keeps the copies consistent. -/
theorem manages_consistent (hcommits : ∀ site, ∀ e ∈ env.steps site, e.Commits) (orderId : ℕ) (w₀ : World) :
    Manages env orderId (Consistent env.requestId orderId w₀)
      (fun w => Consistent env.requestId orderId w₀ w ∧ Present env.requestId w)
      (fun w => Consistent env.requestId orderId w₀ w ∧ Present env.requestId w)
      (WaitedFor env.requestId orderId w₀) (SettledOn env.requestId orderId w₀) where
  stepP₀ site e he w h := h.step (hcommits site e he)
  stepP site e he w h := ⟨h.1.step (hcommits site e he), h.2.step e⟩
  stepI e he w h := ⟨h.1.step (hcommits _ e he), h.2.step e⟩
  stepW site e he w h := h.step (hcommits site e he)
  stepD site e he w h := h.step (hcommits site e he)
  insert row w hid hpending hnew h := ⟨h.insert hnew hid hpending, row, Dict.get?_set_self _ _ _⟩
  save messageId w h := by
    refine h.1.of_manager h.2 rfl rfl rfl rfl (fun requestId' => ?_) fun hset => ⟨hset, rfl⟩
    rw [Dict.get?_modify]
    split
    · rename_i heq
      subst heq
      rw [Option.map_map]
      rfl
    · rfl
  register accountId messageId w h := by
    refine h.1.of_manager h.2 rfl rfl rfl rfl (fun _ => rfl) fun hset => ?_
    simp only [ApprovalManager.register, Dict.get?_set_self] at hset
    cases hset
  wait w h := h.1.endWait h.2
  skip status w hne h := ⟨h.consistent, h.settled hne, h.accepted⟩
  timeout w h := by
    obtain ⟨hconsistent, hsettled⟩ := h.consistent.timeout h.present h.accepted
    exact ⟨hconsistent, hsettled, h.accepted⟩
  unregister status w h := by
    have hnone : (unregister env w).pendingEvents.get? env.requestId ≠ some true := by
      simp only [ApprovalManager.unregister, Dict.get?_erase_self]
      simp
    have hkept : Consistent env.requestId orderId w₀ (unregister env w) ∧ Present env.requestId (unregister env w) :=
      h.consistent.of_manager h.settled.present rfl rfl rfl rfl (fun _ => rfl) fun hset => absurd hset hnone
    exact ⟨hkept.1, h.settled, h.accepted⟩

end Manager

/-! ## Runs -/

/-- The statuses of the responses to the request that were accepted, in their order. -/
def acceptedStatuses (requestId : RequestId) (t : List Event) : List ApprovalStatus :=
  t.filterMap fun e => match e with
    | .accepted requestId' status => if requestId' = requestId then some status else none
    | _ => none

theorem mem_acceptedStatuses {requestId : RequestId} {t : List Event} {status : ApprovalStatus} :
    status ∈ acceptedStatuses requestId t ↔ .accepted requestId status ∈ t := by
  unfold acceptedStatuses
  rw [List.mem_filterMap]
  constructor
  · rintro ⟨e, he, hs⟩
    cases e with
    | accepted requestId' status' =>
      by_cases hid : requestId' = requestId
      · simp only [hid, if_true, Option.some.injEq] at hs
        rwa [← hid, ← hs]
      · simp only [hid, if_false] at hs
        cases hs
    | _ => cases hs
  · exact fun he => ⟨_, he, if_pos rfl⟩

/-- All accepted responses to the request say the same. -/
def Unanimous (requestId : RequestId) (t : List Event) : Prop :=
  ∀ status ∈ acceptedStatuses requestId t, ∀ status' ∈ acceptedStatuses requestId t, status = status'

/-- The order of a request exists, and nothing else refers to the order or the request yet. -/
structure NewRequest (requestId : RequestId) (orderId : ℕ) (w : World) : Prop where
  order : ∃ row, w.orders.get? orderId = some row
  approvals : ∀ requestId' row, w.approvals.get? requestId' = some row →
    requestId' ≠ requestId ∧ row.orderId ≠ orderId
  apiCalls : ∀ call ∈ w.apiCalls, call.requestId ≠ requestId ∧ call.orderId ≠ orderId
  callbacks : ∀ cb ∈ w.callbacks, cb.requestId ≠ requestId
  pending : w.pendingEvents.get? requestId = none

/-- The returned status is in both rows, and is that of the response accepted first. -/
structure Agreed (requestId : RequestId) (orderId : ℕ) (status : ApprovalStatus) (w₀ w : World) : Prop where
  request : ∃ row, w.approvals.get? requestId = some row ∧ row.status = .settled status
  order : (w.orders.get? orderId).map (·.approvalStatus) = some status
  first : (acceptedStatuses requestId (w₀.since w)).head? = some status

theorem NewRequest.consistent {requestId : RequestId} {orderId : ℕ} {w : World} (h : NewRequest requestId orderId w) :
    Consistent requestId orderId w w where
  extends_ := List.prefix_refl _
  order := h.order
  approvals requestId' row hrow :=
    iff_of_false (h.approvals requestId' row hrow).2 (h.approvals requestId' row hrow).1
  apiCalls call hcall := iff_of_false (h.apiCalls call hcall).2 (h.apiCalls call hcall).1
  written row _ hrow _ := absurd rfl (h.approvals requestId row hrow).1
  called call hcall hid := absurd hid (h.apiCalls call hcall).1
  tapped cb hcb hid := absurd hid (h.callbacks cb hcb)
  committed cb hcb hid _ := absurd hid (h.callbacks cb hcb)
  event hset := by rw [h.pending] at hset; cases hset
  present := .inr ⟨h.pending, h.callbacks⟩

/-- Where all accepted responses say the same, the rows say what the manager settled on. -/
theorem SettledOn.agreed {requestId : RequestId} {orderId : ℕ} {status : ApprovalStatus} {w₀ w : World}
    (h : SettledOn requestId orderId w₀ status w) (hunanimous : Unanimous requestId (w₀.since w)) :
    Agreed requestId orderId status w₀ w := by
  have hmem : status ∈ acceptedStatuses requestId (w₀.since w) := mem_acceptedStatuses.2 h.accepted
  obtain ⟨row, status', hrow, hs⟩ := h.settled
  obtain ⟨horder, haccepted⟩ := h.consistent.written row status' hrow hs
  have heq : status' = status := hunanimous _ (mem_acceptedStatuses.2 haccepted) _ hmem
  subst heq
  refine ⟨⟨row, hrow, hs⟩, horder, ?_⟩
  obtain ⟨first, rest, hlist⟩ := List.exists_cons_of_ne_nil (List.ne_nil_of_mem hmem)
  have hfirst : first ∈ acceptedStatuses requestId (w₀.since w) := hlist ▸ List.mem_cons_self ..
  rw [hlist, List.head?_cons, hunanimous _ hfirst _ hmem]

/-- For every interleaving of callbacks, API calls and the timer around a manual approval in which all
transactions commit and all accepted responses say the same, the returned status is in both rows and is
that of the first response, when the manager returns and after any later steps. -/
theorem agreed_of_unanimous (env : Env) (orderId : ℕ) (accountId : String) (w : World)
    (hnew : NewRequest env.requestId orderId w) (hcommits : ∀ site, ∀ e ∈ env.steps site, e.Commits)
    {status : ApprovalStatus} {w₁ : World} (hrun : handleManualApprove env orderId accountId w = .ok status w₁)
    (later : List Step) (hlater : ∀ e ∈ later, e.Commits)
    (hunanimous : Unanimous env.requestId (w.since (Async.runSteps World.step later w₁))) :
    Agreed env.requestId orderId status w (Async.runSteps World.step later w₁) := by
  have hreturned : SettledOn env.requestId orderId w status w₁ :=
    wp_of_ok ((manages_consistent hcommits orderId w).handleManualApprove accountId hnew.consistent) hrun
  have hlast : SettledOn env.requestId orderId w status (Async.runSteps World.step later w₁) :=
    Async.runSteps_keeps (fun e he w h => h.step (hlater e he)) hreturned
  exact hlast.agreed hunanimous

/-- A world with the order for ten shares. -/
def ordered : World := { orders := Table.empty.insert fun _ => buyTen.run.newOrder }

theorem newRequest_ordered : NewRequest 1 1 ordered :=
  ⟨⟨_, rfl⟩, fun _ _ h => (by cases h), fun _ h => (by cases h), fun _ h => (by cases h), rfl⟩

/-- What a manual approval returns, what the rows say after the later steps, which responses were
accepted, and whether some are still under way. -/
def agreementOutcome (env : Env) (later : List Step) :
    Option (ApprovalStatus × Option RequestStatus × Option ApprovalStatus × List ApprovalStatus × Bool) :=
  match handleManualApprove env 1 "default" ordered with
  | .ok status w₁ =>
    let w₂ := Async.runSteps World.step later w₁
    some (status, (w₂.approvals.get? 1).map (·.status), (w₂.orders.get? 1).map (·.approvalStatus),
      acceptedStatuses 1 (ordered.since w₂), w₂.callbacks.isEmpty && w₂.apiCalls.isEmpty)
  | .error _ _ => none

/-- One tap decides. -/
theorem agreed_of_tap : ∃ w₁, handleManualApprove (answeringEnv "reject") 1 "default" ordered = .ok .rejected w₁ ∧
    Agreed 1 1 .rejected ordered w₁ := by
  have hval : agreementOutcome (answeringEnv "reject") [] =
      some (.rejected, some (.settled .rejected), some .rejected, [.rejected], true) := by decide +kernel
  unfold agreementOutcome at hval
  cases hrun : handleManualApprove (answeringEnv "reject") 1 "default" ordered with
  | error e w₁ => rw [hrun] at hval; cases hval
  | ok status w₁ =>
    rw [hrun, Option.some.injEq, Prod.mk.injEq, Prod.mk.injEq, Prod.mk.injEq, Prod.mk.injEq] at hval
    obtain ⟨hstatus, _, _, haccepted, _⟩ := hval
    subst hstatus
    refine ⟨w₁, rfl, agreed_of_unanimous (answeringEnv "reject") 1 "default" ordered newRequest_ordered
      (fun site => ?_) hrun [] (fun _ h => by cases h) ?_⟩
    · simp only [answeringEnv]
      split <;> decide
    · have hone : ∀ s ∈ acceptedStatuses 1 (ordered.since (Async.runSteps World.step [] w₁)), s = .rejected := by
        rw [haccepted]
        simp
      exact fun s hs s' hs' => (hone s hs).trans (hone s' hs').symm

/-- Two callbacks pass their check while the request is pending; the one that approves is handled first. -/
def twoTapsEnv : Env :=
  { plainEnv with
    steps := fun site => match site with
      | .waitForResponse =>
        [.tap 1 "approve", .tap 1 "reject", .callbackCommit 0 false, .callbackRedis 0, .callbackTelegram 0,
          .callbackSignal 0]
      | _ => [] }

/-- The second callback goes on after the manager has returned. -/
def secondTap : List Step := [.callbackCommit 0 false, .callbackRedis 0, .callbackTelegram 0, .callbackSignal 0]

/-- The manager returns an approval, and once both callbacks are through, the rows say rejected. -/
theorem secondTap_overwrites : (∀ site, ∀ e ∈ twoTapsEnv.steps site, e.Commits) ∧ (∀ e ∈ secondTap, e.Commits) ∧
    ∃ w₁, handleManualApprove twoTapsEnv 1 "default" ordered = .ok .approved w₁ ∧
      (Async.runSteps World.step secondTap w₁).callbacks = [] ∧ (Async.runSteps World.step secondTap w₁).apiCalls = [] ∧
      ¬ Agreed 1 1 .approved ordered (Async.runSteps World.step secondTap w₁) := by
  have hval : agreementOutcome twoTapsEnv secondTap =
      some (.approved, some (.settled .rejected), some .rejected, [.approved, .rejected], true) := by decide +kernel
  refine ⟨fun site => ?_, by decide, ?_⟩
  · simp only [twoTapsEnv]
    split <;> decide
  · unfold agreementOutcome at hval
    cases hrun : handleManualApprove twoTapsEnv 1 "default" ordered with
    | error e w₁ => rw [hrun] at hval; cases hval
    | ok status w₁ =>
      rw [hrun, Option.some.injEq, Prod.mk.injEq, Prod.mk.injEq, Prod.mk.injEq, Prod.mk.injEq] at hval
      obtain ⟨hstatus, hrow, horder, _, hidle⟩ := hval
      subst hstatus
      rw [Bool.and_eq_true, List.isEmpty_iff, List.isEmpty_iff] at hidle
      refine ⟨w₁, rfl, hidle.1, hidle.2, fun hagreed => ?_⟩
      rw [hagreed.order] at horder
      cases horder

end TradingAgent
