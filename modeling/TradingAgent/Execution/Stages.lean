/-
Specification of the stages of the executor. Up to the broker call a run touches neither positions nor
the broker, and it gets there only past the web verification, with an approval, and with a quantity that
is the requested one or a modified one that was checked again.
-/
import TradingAgent.Execution.ApprovalSpec
import TradingAgent.Execution.Executor

namespace TradingAgent

open Wp Execution

variable {env : Env}

/-! ## The frame of the manager -/

theorem Quiet.step {l : List Event} {w w' : World} (h : Quiet l w w') (e : Step) : Quiet l w (w'.step e) :=
  h.then (step_frame w' e).toQuiet

theorem Frame.step {l : List Event} {w w' : World} (h : Frame l w w') (e : Step) : Frame l w (w'.step e) :=
  h.then (step_frame w' e)

theorem Quiet.log {l : List Event} {w w' : World} (h : Quiet l w w') {e : Event} (he : e.isOwn = true) :
    Quiet (l ++ [e]) w (w'.log e) :=
  ⟨h.positions, h.executions, by rw [own_log_of_isOwn he, h.own, List.append_assoc],
    h.extends_.trans (List.prefix_append ..)⟩

theorem Frame.log {l : List Event} {w w' : World} (h : Frame l w w') {e : Event} (he : e.isOwn = true) :
    Frame (l ++ [e]) w (w'.log e) := ⟨h.toQuiet.log he, h.status⟩

theorem Frame.log_of_not_isOwn {l : List Event} {w w' : World} (h : Frame l w w') {e : Event}
    (he : e.isOwn = false) : Frame l w (w'.log e) :=
  ⟨⟨h.positions, h.executions, by rw [own_log_of_not_isOwn he, h.own], h.extends_.trans (List.prefix_append ..)⟩,
    h.status⟩

/-- A change of the rows and dictionaries of the manager alone. -/
theorem Frame.of_manager {l : List Event} {w w' w'' : World} (h : Frame l w w')
    (hpositions : w''.positions = w'.positions) (hexecutions : w''.executions = w'.executions)
    (htrace : w''.trace = w'.trace)
    (hstatus : ∀ id, (w''.orders.get? id).map (·.status) = (w'.orders.get? id).map (·.status)) :
    Frame l w w'' := by
  refine h.then ⟨⟨hpositions, hexecutions, ?_, ?_⟩, hstatus⟩
  · unfold World.own
    rw [htrace, List.append_nil]
  · exact htrace ▸ List.prefix_refl _

namespace ApprovalManager

/-- A set event comes with the result of a callback of this request, handled since `w₀`. -/
def Answered (env : Env) (w₀ w : World) : Prop :=
  w.pendingEvents.get? env.requestId = some true → ∃ action answer, parseAction action = some answer ∧
    w.pendingResults.get? env.requestId = some answer.status ∧ .handled env.requestId action ∈ w₀.since w

/-- A response that leaves the event and the result of the request alone keeps what is known of them. -/
theorem Answered.congr {w₀ w w' : World} (h : Answered env w₀ w)
    (hevents : w'.pendingEvents.get? env.requestId = w.pendingEvents.get? env.requestId)
    (hresults : w'.pendingResults.get? env.requestId = w.pendingResults.get? env.requestId)
    (htrace : w.trace <+: w'.trace) : Answered env w₀ w' := by
  intro hset
  obtain ⟨action, answer, hparse, hresult, hmem⟩ := h (hevents ▸ hset)
  exact ⟨action, answer, hparse, hresults.trans hresult, mem_since_mono htrace hmem⟩

theorem Answered.step {w₀ w : World} (hextends : w₀.trace <+: w.trace) (h : Answered env w₀ w) (e : Step) :
    Answered env w₀ (w.step e) := by
  have hmove := step_move w e
  generalize w.step e = w' at hmove
  cases hmove with
  | signal i cb hcb hphase =>
    by_cases hid : cb.requestId = env.requestId
    · intro _
      refine ⟨cb.action, cb.answer, cb.parsed, ?_, ?_⟩
      · simp only [World.callbackSignal, ← hid, Dict.get?_set_self]
      · have hsince : w₀.since (w.callbackSignal i cb) = w₀.since w ++ [.handled cb.requestId cb.action] :=
          since_log hextends _
        rw [hsince, hid]
        simp
    · refine h.congr ?_ ?_ (List.prefix_append ..)
      · simp only [World.callbackSignal]
        rw [Dict.get?_modify, if_neg (Ne.symm hid)]
      · simp only [World.callbackSignal]
        rw [Dict.get?_set_ne _ _ (Ne.symm hid)]
  | idle => exact h
  | tap cb => exact h.congr rfl rfl (List.prefix_append ..)
  | fail i cb => exact h.congr rfl rfl (List.prefix_refl _)
  | commit i cb row => exact h.congr rfl rfl (List.prefix_append ..)
  | next i cb phase => exact h.congr rfl rfl (List.prefix_refl _)
  | respond row call => exact h.congr rfl rfl (List.prefix_append ..)
  | respondFail i call => exact h.congr rfl rfl (List.prefix_refl _)
  | respondCommit i call => exact h.congr rfl rfl (List.prefix_append ..)

/-- A callback with a consenting action for the request was handled before the wait ended with an
approval. -/
def Consented (requestId : RequestId) (t : List Event) : Prop :=
  ∃ before after action, t = before ++ .waitEnded requestId .approved :: after ∧
    .handled requestId action ∈ before ∧ Consents action

theorem Consented.mono {requestId : RequestId} {w₀ w w' : World} (hextends : w₀.trace <+: w.trace)
    (htrace : w.trace <+: w'.trace) (h : Consented requestId (w₀.since w)) :
    Consented requestId (w₀.since w') := by
  obtain ⟨before, after, action, hsince, hmem, hcons⟩ := h
  obtain ⟨l, hl⟩ := htrace
  refine ⟨before, after ++ l, action, ?_, hmem, hcons⟩
  have : w₀.since w' = w₀.since w ++ l := by
    apply since_of_append
    rw [← hl, ← append_since hextends, List.append_assoc]
  rw [this, hsince, List.append_assoc, List.cons_append]

/-- The frame of the manager after its wait. -/
def Waited (env : Env) (w₀ : World) (status : ApprovalStatus) (w : World) : Prop :=
  Frame [.waitEnded env.requestId status] w₀ w ∧ status ≠ .autoApproved ∧
    (status = .approved → Consented env.requestId (w₀.since w))

theorem Waited.then {w₀ w w' : World} {status : ApprovalStatus} (h : Waited env w₀ status w)
    (h' : Frame [] w w') : Waited env w₀ status w' :=
  ⟨h.1.then h', h.2.1, fun hs => (h.2.2 hs).mono h.1.extends_ h'.extends_⟩

theorem endWait_waited {w₀ w : World} (h : Frame [] w₀ w) (ha : Answered env w₀ w) :
    Waited env w₀ (endWait env w).1 (endWait env w).2 := by
  unfold endWait
  split
  · rename_i hset
    obtain ⟨action, answer, hparse, hresult, hmem⟩ := ha hset.1
    dsimp only
    rw [hresult, Option.getD_some]
    refine ⟨h.log rfl, ?_, fun hs => ?_⟩
    · rcases parseAction_status hparse with hs | hs <;> rw [hs] <;> simp
    · rw [since_log h.extends_, hs]
      exact ⟨w₀.since w, [], action, rfl, hmem, consents_of_approved hparse hs⟩
  · refine ⟨(h.log_of_not_isOwn rfl).log rfl, by simp, fun hs => ?_⟩
    cases hs

/-- What the manager does to the world, and what its wait says about the callbacks. -/
theorem manages_frame (orderId : ℕ) (w₀ : World) : Manages env orderId (Frame [] w₀) (Frame [] w₀)
    (fun w => Frame [] w₀ w ∧ Answered env w₀ w) (Waited env w₀) (Waited env w₀) where
  stepP₀ _ e _ _ hw := hw.step e
  stepP _ e _ _ hw := hw.step e
  stepI e _ _ hw := ⟨hw.1.step e, hw.2.step hw.1.extends_ e⟩
  stepW _ e _ w hw := hw.then (step_frame w e)
  stepD _ e _ w hw := hw.then (step_frame w e)
  insert _ _ _ _ _ hw := hw.of_manager rfl rfl rfl fun _ => rfl
  save _ _ hw := hw.of_manager rfl rfl rfl fun _ => rfl
  register _ _ _ hw := by
    refine ⟨hw.of_manager rfl rfl rfl fun _ => rfl, fun hset => ?_⟩
    simp [register] at hset
  wait _ hw := endWait_waited hw.1 hw.2
  skip _ _ _ hw := hw
  timeout _ hw := hw.then
    (.of_manager (.refl _) rfl rfl rfl (map_status_update _ _ _ fun _ => rfl))
  unregister _ _ hw := hw.then (.of_manager (.refl _) rfl rfl rfl fun _ => rfl)

theorem keepsApprove_frame (orderId : ℕ) (w₀ : World) : KeepsApprove env orderId (Frame [] w₀) :=
  fun _ _ _ _ _ hw => hw.of_manager rfl rfl rfl (map_status_update _ _ _ fun _ => rfl)

/-- How an approval request ends: approved without asking, or with the status of its wait. -/
def Requested (env : Env) (tradeDecision : TradeDecision) (state : PortfolioState) (w₀ : World)
    (status : ApprovalStatus) (w : World) : Prop :=
  (checkAutoApprove env tradeDecision (portfolioPct tradeDecision state) ≠ none ∧ status = .autoApproved ∧
    Frame [] w₀ w) ∨ Waited env w₀ status w

theorem requestApproval_spec (tradeDecision : TradeDecision) (orderId : ℕ) (state : PortfolioState)
    (accountId : String) (w : World) :
    wp (requestApproval env tradeDecision orderId state accountId) (Requested env tradeDecision state w)
      (fun _ w' => Frame [] w w' ∨ Waited env w .timeout w') w := by
  refine wp_mono ((manages_frame orderId w).requestApproval (keepsApprove_frame orderId w) tradeDecision state
    accountId (.refl w)) (fun _ _ h => h) fun _ _ h => ?_
  rcases h with h | h | h | h
  · exact .inl h
  · exact .inl h
  · exact .inr h
  · exact .inr h

end ApprovalManager

/-! ## The stages of the executor -/

namespace OrderExecutor

open ApprovalManager

variable {l : List Event} {w₀ : World}

theorem quiet_update {w : World} (h : Quiet l w₀ w) (orderId : ℕ) (fields : Order → Order) :
    Quiet l w₀ { w with orders := w.orders.update orderId fields } :=
  h.then ⟨rfl, rfl, (List.append_nil _).symm, List.prefix_refl _⟩

theorem keeps_updateOrder (site : Site) (orderId : ℕ) (fields : Order → Order) :
    Keeps (Quiet l w₀) (updateOrder env site orderId fields) :=
  keeps_await (fun e _ _ h => h.step e) (keeps_modify fun _ h => quiet_update h orderId fields)

/-- A notification never raises. -/
theorem wp_notifySafe {I : World → Prop} (hstep : ∀ w e, I w → I (w.step e)) {w : World} (hw : I w) :
    wp (notifySafe env) (fun _ w' => I w') (fun _ _ => False) w := by
  unfold notifySafe
  rw [wp_tryCatch]
  exact wp_await_pure (fun e _ w h => hstep w e h) hw (fun _ hw₁ _ => hw₁) fun _ _ hw₁ => hw₁

/-- Nor does recording a decision. -/
theorem wp_recordDecisionSafe {I : World → Prop} (hstep : ∀ w e, I w → I (w.step e)) {w : World} (hw : I w) :
    wp (recordDecisionSafe env) (fun _ w' => I w') (fun _ _ => False) w := by
  unfold recordDecisionSafe
  rw [wp_tryCatch, wp_map]
  exact wp_await_pure (fun e _ w h => hstep w e h) hw (fun _ hw₁ _ => hw₁) fun _ _ hw₁ => hw₁

/-- A run that ends without success and leaves positions and broker as they were. -/
def EndsQuiet (l : List Event) (w₀ : World) (x : M ExecutionResult) : Prop :=
  ∀ w, Quiet l w₀ w → wp x (fun res w' => res.success = false ∧ Quiet l w₀ w') (fun _ w' => Quiet l w₀ w') w

theorem recorded_ends {res : Option ℕ → ExecutionResult} (hres : ∀ did, (res did).success = false) :
    EndsQuiet l w₀ (recordDecisionSafe env >>= fun did => pure (res did)) := by
  intro w hw
  rw [wp_bind]
  exact wp_mono (wp_recordDecisionSafe (I := Quiet l w₀) (fun _ e h => h.step e) hw)
    (fun did _ hw₁ => ⟨hres did, hw₁⟩) fun _ _ h => h.elim

theorem notified_ends {res : Option ℕ → ExecutionResult} (hres : ∀ did, (res did).success = false) :
    EndsQuiet l w₀ (notifySafe env >>= fun _ => recordDecisionSafe env >>= fun did => pure (res did)) := by
  intro w hw
  rw [wp_bind]
  exact wp_mono (wp_notifySafe (I := Quiet l w₀) (fun _ e h => h.step e) hw)
    (fun _ w₁ hw₁ => recorded_ends hres w₁ hw₁) fun _ _ h => h.elim

theorem block_ends (run : Run) (orderId : ℕ) (verification : WebVerification) :
    EndsQuiet l w₀ (block env run orderId verification) := by
  intro w hw
  unfold block
  rw [wp_bind]
  exact wp_mono (keeps_updateOrder _ _ _ w hw) (fun _ w₁ hw₁ => notified_ends (fun _ => rfl) w₁ hw₁) fun _ _ h => h

theorem cancel_ends (run : Run) (orderId : ℕ) (verification : WebVerification) (status : ApprovalStatus)
    (label : String) : EndsQuiet l w₀ (cancel env run orderId verification status label) := by
  intro w hw
  unfold cancel
  rw [wp_bind]
  exact wp_mono (keeps_updateOrder _ _ _ w hw) (fun _ w₁ hw₁ => recorded_ends (fun _ => rfl) w₁ hw₁) fun _ _ h => h

theorem riskBlocked_ends (args : EntryArgs) (orderId : ℕ) (verification : WebVerification)
    (status : ApprovalStatus) (q : ℤ) (violations : List String) :
    EndsQuiet l w₀ (riskBlocked env args orderId verification status q violations) := by
  intro w hw
  unfold riskBlocked
  rw [wp_bind]
  exact wp_mono (keeps_updateOrder _ _ _ w hw) (fun _ w₁ hw₁ => notified_ends (fun _ => rfl) w₁ hw₁) fun _ _ h => h

/-- The handler of an exception never raises. -/
theorem wp_abort {I : World → Prop} (hstep : ∀ w e, I w → I (w.step e))
    (hupdate : ∀ w orderId (fields : Order → Order), I w → I { w with orders := w.orders.update orderId fields })
    (run : Run) (orderId : ℕ) (e : Exn) {w : World} (hw : I w) :
    wp (abort env run orderId e) (fun res w' => res.success = false ∧ res.orderId = some orderId ∧ I w')
      (fun _ _ => False) w := by
  unfold abort updateOrderSafe
  rw [wp_bind, wp_tryCatch]
  refine wp_mono (keeps_await (fun e _ w h => hstep w e h)
    (keeps_modify fun w h => hupdate w orderId _ h) w hw) (fun _ _ hw₁ => ⟨rfl, rfl, hw₁⟩) fun _ w₁ hw₁ => ?_
  exact ⟨rfl, rfl, hw₁⟩

/-- The row of a new order. -/
def Run.newOrder (run : Run) : Order :=
  { symbol := run.symbol, side := run.side, orderType := run.orderType, quantity := run.quantity
    price := run.price, accountId := run.accountId, originalQuantity := run.quantity }

theorem wp_createOrder {I : World → Prop} {Q : ℕ → World → Prop} {R : Exn → World → Prop}
    (hstep : ∀ w e, I w → I (w.step e)) {run : Run} {w : World} (hw : I w)
    (hok : ∀ w₁, I w₁ →
      Q w₁.orders.nextId { w₁ with orders := w₁.orders.insert (fun _ => run.newOrder) })
    (hbad : ∀ e w₁, I w₁ → R e w₁ ∧ R e { w₁ with orders := w₁.orders.insert (fun _ => run.newOrder) }) :
    wp (createOrder env run.symbol run.side run.orderType run.quantity run.price run.accountId) Q R w :=
  Execution.wp_await_of (fun e _ w h => hstep w e h) hw (fun w₁ hw₁ _ => hok w₁ hw₁)
    fun f w₁ hw₁ _ => hbad f.exn w₁ hw₁

/-! ## The way to the broker -/

/-- What a run can carry along on its way, in terms of its order once there is one. -/
structure Carries (env : Env) (run : Run) (J₀ : World → Prop) (J : ℕ → World → Prop) : Prop where
  step₀ : ∀ w e, J₀ w → J₀ (w.step e)
  create : ∀ w, J₀ w → J w.orders.nextId { w with orders := w.orders.insert (fun _ => run.newOrder) }
  step : ∀ id w e, J id w → J id (w.step e)
  web : ∀ id w (v : WebVerification), J id w → J id { w with orders := w.orders.update id (fun o => { o with
    webVerifyResult := some v.result, webVerifySummary := v.summary }) }
  manages : ∀ id, Manages env id (J id) (J id) (J id) (fun _ => J id) (fun _ => J id)
  approve : ∀ id, KeepsApprove env id (J id)

/-- A run can always carry nothing. -/
theorem Carries.nothing (env : Env) (run : Run) : Carries env run (fun _ => True) (fun _ _ => True) where
  step₀ _ _ _ := trivial
  create _ _ := trivial
  step _ _ _ _ := trivial
  web _ _ _ _ := trivial
  manages _ := by constructor <;> intros <;> trivial
  approve _ _ _ _ _ _ _ := trivial

/-- How a run comes past its approval: without asking, or with the consent of a callback. -/
def Approved (env : Env) (tradeDecision : TradeDecision) (w₀ : World) (status : ApprovalStatus) (w : World) :
    Prop :=
  (checkAutoApprove env tradeDecision (portfolioPct tradeDecision (env.portfolio .getCurrentState)) ≠ none ∧
    status = .autoApproved ∧ Quiet [] w₀ w) ∨
  (status = .approved ∧ Quiet [.waitEnded env.requestId .approved] w₀ w ∧
    Consented env.requestId (w₀.since w))

/-- A run that ends before its approval logged no wait, or one that did not end with an approval. -/
def Unapproved (env : Env) (l : List Event) : Prop :=
  l = [] ∨ ∃ status, status ≠ .approved ∧ l = [.waitEnded env.requestId status]

/-- Up to its approval a run has no answer of the broker. -/
theorem Unapproved.unanswered {l : List Event} (h : Unapproved env l) (request : OrderRequest)
    (result : OrderResult) : .answered request result ∉ l := by
  rcases h with rfl | ⟨status, _, rfl⟩ <;> simp

theorem Approved.unanswered {tradeDecision : TradeDecision} {status : ApprovalStatus} {w : World}
    (h : Approved env tradeDecision w₀ status w) :
    ∃ l, Quiet l w₀ w ∧ ∀ request result, .answered request result ∉ l := by
  rcases h with ⟨_, _, hquiet⟩ | ⟨_, hquiet, _⟩ <;> exact ⟨_, hquiet, by simp⟩

theorem approved_of_requested {tradeDecision : TradeDecision} {w w₁ : World} {status : ApprovalStatus}
    (hw : Quiet [] w₀ w) (h : Requested env tradeDecision (env.portfolio .getCurrentState) w status w₁)
    (hs : ¬ (status = .rejected ∨ status = .timeout)) : Approved env tradeDecision w₀ status w₁ := by
  rcases h with ⟨hauto, hstatus, hframe⟩ | ⟨hframe, hne, hcons⟩
  · exact .inl ⟨hauto, hstatus, hw.trans hframe.toQuiet⟩
  · have hstatus : status = .approved := by
      cases status with
      | approved => rfl
      | autoApproved => exact absurd rfl hne
      | rejected => exact absurd (.inl rfl) hs
      | timeout => exact absurd (.inr rfl) hs
    subst hstatus
    refine .inr ⟨rfl, hw.trans hframe.toQuiet, ?_⟩
    obtain ⟨before, after, action, hsince, hmem, hc⟩ := hcons rfl
    refine ⟨w₀.since w ++ before, after, action, ?_, List.mem_append_right _ hmem, hc⟩
    rw [since_append hw.extends_ hframe.extends_, hsince, List.append_assoc]

theorem unapproved_of_requested {tradeDecision : TradeDecision} {w w₁ : World} {status : ApprovalStatus}
    (hw : Quiet [] w₀ w) (h : Requested env tradeDecision (env.portfolio .getCurrentState) w status w₁)
    (hs : status = .rejected ∨ status = .timeout) : ∃ l, Quiet l w₀ w₁ ∧ Unapproved env l := by
  rcases h with ⟨_, hstatus, hframe⟩ | ⟨hframe, _, _⟩
  · exact ⟨[], hw.trans hframe.toQuiet, .inl rfl⟩
  · refine ⟨_, hw.trans hframe.toQuiet, .inr ⟨status, ?_, rfl⟩⟩
    rcases hs with rfl | rfl <;> simp

variable {J₀ : World → Prop} {J : ℕ → World → Prop} {run : Run} {tradeDecision : TradeDecision}
  {label : String} {proceed : ℕ → WebVerification → ApprovalStatus → M ExecutionResult}

/-- What is shown of a run: `Q` where it ends before its approval, and where it proceeds from there. -/
structure Goal (env : Env) (run : Run) (tradeDecision : TradeDecision) (J : ℕ → World → Prop)
    (proceed : ℕ → WebVerification → ApprovalStatus → M ExecutionResult) (w₀ : World)
    (Q : ExecutionResult → World → Prop) : Prop where
  ends : ∀ res l w, res.success = false → Quiet l w₀ w → Unapproved env l → Q res w
  proceeds : ∀ id status w, env.verification.result ≠ .blocked → Approved env tradeDecision w₀ status w →
    J id w → wp (proceed id env.verification status) Q
      (fun e w' => wp (abort env run id e) Q (fun _ _ => False) w') w

variable {Q : ExecutionResult → World → Prop}

theorem Goal.aborts (h : Goal env run tradeDecision J proceed w₀ Q) {l : List Event} {w : World}
    (hl : Unapproved env l) (hw : Quiet l w₀ w) (id : ℕ) (e : Exn) :
    wp (abort env run id e) Q (fun _ _ => False) w :=
  wp_mono (wp_abort (I := Quiet l w₀) (fun _ e h => h.step e) (fun _ id f h => quiet_update h id f) run id e hw)
    (fun res w' hres => h.ends res l w' hres.1 hres.2.2 hl) fun _ _ h => h

theorem Goal.approve (h : Goal env run tradeDecision J proceed w₀ Q) (hJ : Carries env run J₀ J) {id : ℕ}
    (hnot : env.verification.result ≠ .blocked) {w : World} (hw : Quiet [] w₀ w ∧ J id w) :
    wp (approve env run tradeDecision label id env.verification proceed) Q
      (fun e w' => wp (abort env run id e) Q (fun _ _ => False) w') w := by
  unfold OrderExecutor.approve getCurrentState
  rw [wp_bind]
  refine wp_await_pure (I := fun w => Quiet [] w₀ w ∧ J id w) (fun e _ w h => ⟨h.1.step e, hJ.step id w e h.2⟩)
    hw (fun w₁ hw₁ _ => ?_) fun e w₁ hw₁ => h.aborts (.inl rfl) hw₁.1 id e
  rw [wp_bind]
  have hreq := wp_and (requestApproval_spec tradeDecision id (env.portfolio .getCurrentState)
      run.accountId w₁)
    ((hJ.manages id).requestApproval (hJ.approve id) tradeDecision (env.portfolio .getCurrentState)
      run.accountId hw₁.2)
  refine wp_mono hreq (fun status w₂ hw₂ => ?_) fun e w₂ hw₂ => ?_
  · have hJ₂ : J id w₂ := hw₂.2.elim (fun h => h.2.2) fun h => h
    split
    · rename_i hs
      obtain ⟨l, hl, hun⟩ := unapproved_of_requested hw₁.1 hw₂.1 hs
      exact wp_mono (cancel_ends run id env.verification status label w₂ hl)
        (fun res w' hres => h.ends res l w' hres.1 hres.2 hun) fun e w' hw' => h.aborts hun hw' id e
    · rename_i hs
      exact h.proceeds id status w₂ hnot (approved_of_requested hw₁.1 hw₂.1 hs) hJ₂
  · rcases hw₂.1 with hframe | hwaited
    · exact h.aborts (.inl rfl) (hw₁.1.trans hframe.toQuiet) id e
    · exact h.aborts (.inr ⟨.timeout, by simp, rfl⟩) (hw₁.1.trans hwaited.1.toQuiet) id e

theorem Goal.verifyAndApprove (h : Goal env run tradeDecision J proceed w₀ Q) (hJ : Carries env run J₀ J) {id : ℕ}
    {w : World} (hw : Quiet [] w₀ w ∧ J id w) :
    wp (verifyAndApprove env run tradeDecision label id proceed) Q
      (fun e w' => wp (abort env run id e) Q (fun _ _ => False) w') w := by
  have hstep : ∀ w e, (Quiet [] w₀ w ∧ J id w) → Quiet [] w₀ (w.step e) ∧ J id (w.step e) :=
    fun w e h => ⟨h.1.step e, hJ.step id w e h.2⟩
  unfold OrderExecutor.verifyAndApprove verify
  rw [wp_bind]
  refine wp_await_pure (fun e _ w h => hstep w e h) hw (fun w₁ hw₁ _ => ?_)
    fun e w₁ hw₁ => h.aborts (.inl rfl) hw₁.1 id e
  rw [wp_bind]
  refine wp_await_modify (fun e _ w h => hstep w e h) hw₁ (fun w₂ hw₂ => ?_) fun e w₂ hw₂ =>
    ⟨h.aborts (.inl rfl) hw₂.1 id e, h.aborts (.inl rfl) (quiet_update hw₂.1 id _) id e⟩
  have hw₃ := quiet_update hw₂.1 id (fun o => { o with
    webVerifyResult := some env.verification.result, webVerifySummary := env.verification.summary })
  split
  · exact wp_mono (block_ends run id env.verification _ hw₃)
      (fun res w' hres => h.ends res [] w' hres.1 hres.2 (.inl rfl)) fun e w' hw' => h.aborts (.inl rfl) hw' id e
  · rename_i hnot
    exact h.approve hJ hnot ⟨hw₃, hJ.web id w₂ env.verification hw₂.2⟩

/-- The rule for a whole run. -/
theorem Goal.submit (h : Goal env run tradeDecision J proceed w₀ Q) (hJ : Carries env run J₀ J) (hw : J₀ w₀) :
    wp (submit env run tradeDecision label proceed) Q (fun _ _ => False) w₀ := by
  unfold OrderExecutor.submit
  rw [wp_tryCatch, wp_bind]
  have hinsert : ∀ w, Quiet [] w₀ w →
      Quiet [] w₀ { w with orders := w.orders.insert (fun _ => run.newOrder) } := fun w h =>
    h.then ⟨rfl, rfl, (List.append_nil _).symm, List.prefix_refl _⟩
  refine wp_createOrder (I := fun w => Quiet [] w₀ w ∧ J₀ w) (fun w e h => ⟨h.1.step e, hJ.step₀ w e h.2⟩)
    ⟨.refl w₀, hw⟩ (fun w₁ hw₁ => ?_) fun e w₁ hw₁ => ?_
  · rw [wp_tryCatch]
    refine wp_mono (h.verifyAndApprove hJ ⟨hinsert w₁ hw₁.1, hJ.create w₁ hw₁.2⟩) (fun _ _ h => h)
      fun e w₂ hw₂ => ?_
    exact wp_mono hw₂ (fun _ _ h => h) fun _ _ h => h.elim
  · exact ⟨h.ends _ [] w₁ rfl hw₁.1 (.inl rfl), h.ends _ [] _ rfl (hinsert w₁ hw₁.1) (.inl rfl)⟩

/-- The rule for a run that carries nothing along. -/
theorem Goal.submit_nothing (h : Goal env run tradeDecision (fun _ _ => True) proceed w₀ Q) :
    wp (OrderExecutor.submit env run tradeDecision label proceed) Q (fun _ _ => False) w₀ :=
  h.submit (.nothing env run) trivial

end OrderExecutor

end TradingAgent
