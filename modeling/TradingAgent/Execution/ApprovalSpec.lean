/-
Specification of the approval manager. `Manages` collects what an invariant has to survive: the writes
of the manager, one by one, and the steps of the responses between them. The rule for
`requestApproval` is proved once from it; its instances are the frame of the manager and the consent that
an approved wait gives.
-/
import TradingAgent.Execution.Approval

namespace TradingAgent

open Wp Execution

variable {env : Env}

namespace Execution

/-! ## Awaits -/

theorem wp_await_of {α : Type} {site : Site} {op : M α} {I : World → Prop} {Q : α → World → Prop}
    {R : Exn → World → Prop} {w : World} (hI : ∀ e ∈ env.steps site, ∀ w, I w → I (w.step e)) (hw : I w)
    (hop : ∀ w', I w' → env.fault site = none → wp op Q R w')
    (hfault : ∀ f w', I w' → env.fault site = some f → R f.exn w' ∧ wp op (fun _ => R f.exn) R w') :
    wp (await env site op) Q R w := Async.wp_await_of hI hw hop hfault

/-- Awaiting a call that ends in `P` in either way, where the states before it are in `P` as well. -/
theorem wp_await_ends {α : Type} {site : Site} {op : M α} {I P : World → Prop} {Q : α → World → Prop}
    {R : Exn → World → Prop} {w : World} (hI : ∀ e ∈ env.steps site, ∀ w, I w → I (w.step e)) (hw : I w)
    (hop : ∀ w', I w' → wp op (fun _ => P) (fun _ => P) w') (hstay : ∀ w', I w' → P w')
    (hQ : ∀ a w', P w' → Q a w') (hR : ∀ e w', P w' → R e w') : wp (await env site op) Q R w :=
  wp_await_of hI hw (fun w' hw' _ => wp_mono (hop w' hw') hQ hR) fun f w' hw' _ =>
    ⟨hR f.exn w' (hstay w' hw'), wp_mono (hop w' hw') (fun _ => hR f.exn) hR⟩

theorem keeps_await {α : Type} {site : Site} {op : M α} {I : World → Prop}
    (hI : ∀ e ∈ env.steps site, ∀ w, I w → I (w.step e)) (hop : Keeps I op) : Keeps I (await env site op) :=
  Async.keeps_await hI hop

/-- Awaiting a call that does not fail. -/
theorem wp_await_ok {α : Type} {site : Site} {op : M α} {I : World → Prop} {Q : α → World → Prop}
    {R : Exn → World → Prop} {w : World} (hsite : env.fault site = none) (hI : ∀ w e, I w → I (w.step e))
    (hw : I w) (hop : ∀ w', I w' → wp op Q R w') : wp (await env site op) Q R w :=
  wp_await_of (fun e _ w h => hI w e h) hw (fun w' hw' _ => hop w' hw')
    fun f _ _ hf => by rw [hsite] at hf; cases hf

/-- Awaiting a call that leaves the world alone. -/
theorem wp_await_pure {α : Type} {site : Site} {a : α} {I : World → Prop} {Q : α → World → Prop}
    {R : Exn → World → Prop} {w : World} (hI : ∀ e ∈ env.steps site, ∀ w, I w → I (w.step e)) (hw : I w)
    (hok : ∀ w', I w' → env.fault site = none → Q a w') (hfault : ∀ e w', I w' → R e w') :
    wp (await env site (pure a)) Q R w :=
  wp_await_of hI hw hok fun f w' hw' _ => ⟨hfault f.exn w' hw', hfault f.exn w' hw'⟩

/-- Awaiting a write. -/
theorem wp_await_modify {site : Site} {f : World → World} {I : World → Prop} {Q : PUnit → World → Prop}
    {R : Exn → World → Prop} {w : World} (hI : ∀ e ∈ env.steps site, ∀ w, I w → I (w.step e)) (hw : I w)
    (hok : ∀ w', I w' → Q ⟨⟩ (f w')) (hfault : ∀ e w', I w' → R e w' ∧ R e (f w')) :
    wp (await env site (modify f)) Q R w :=
  wp_await_of hI hw (fun w' hw' _ => hok w' hw') fun _ w' hw' _ => hfault _ w' hw'

theorem keeps_await_pure {α : Type} {site : Site} {a : α} {I : World → Prop}
    (hI : ∀ e ∈ env.steps site, ∀ w, I w → I (w.step e)) : Keeps I (await env site (pure a)) :=
  keeps_await hI (keeps_pure a)

end Execution

namespace ApprovalManager

/-! ## The rule -/

/-- What the manager keeps: `P₀` until there is a request, `P` until it is registered, `I` while it waits,
`W` from there to the writing of a timeout, and `D` once the status is settled. -/
structure Manages (env : Env) (orderId : ℕ) (P₀ P I : World → Prop) (W D : ApprovalStatus → World → Prop) :
    Prop where
  stepP₀ : ∀ site, ∀ e ∈ env.steps site, ∀ w, P₀ w → P₀ (w.step e)
  stepP : ∀ site, ∀ e ∈ env.steps site, ∀ w, P w → P (w.step e)
  stepI : ∀ e ∈ env.steps .waitForResponse, ∀ w, I w → I (w.step e)
  stepW : ∀ site, ∀ e ∈ env.steps site, ∀ w, W .timeout w → W .timeout (w.step e)
  stepD : ∀ site, ∀ e ∈ env.steps site, ∀ w, D .timeout w → D .timeout (w.step e)
  insert : ∀ row w, row.orderId = orderId → row.status = .pending → w.approvals.get? env.requestId = none →
    P₀ w → P { w with approvals := w.approvals.set env.requestId row }
  save : ∀ messageId w, P w → P { w with
    approvals := w.approvals.modify env.requestId (fun r => { r with telegramMessageId := messageId }) }
  register : ∀ accountId messageId w, P w → I (register env accountId messageId w)
  wait : ∀ w, I w → W (endWait env w).1 (endWait env w).2
  skip : ∀ status w, status ≠ .timeout → W status w → D status w
  timeout : ∀ w, W .timeout w → D .timeout { w with
    approvals := w.approvals.modify env.requestId (fun r => { r with status := .settled .timeout })
    orders := w.orders.update orderId (fun o => { o with approvalStatus := .timeout }) }
  unregister : ∀ status w, D status w → D status (unregister env w)

variable {orderId : ℕ} {P₀ P I : World → Prop} {W D : ApprovalStatus → World → Prop}

/-- The write of an automatic approval keeps `P`. -/
def KeepsApprove (env : Env) (orderId : ℕ) (P : World → Prop) : Prop :=
  ∀ row w, row.orderId = orderId → row.status = .settled .autoApproved →
    w.approvals.get? env.requestId = none → P w → P { w with
      approvals := w.approvals.set env.requestId row
      orders := w.orders.update orderId (fun o => { o with approvalStatus := .autoApproved }) }

theorem wp_insertRequest {row : ApprovalRequestDB} {Q : PUnit → World → Prop} {R : Exn → World → Prop}
    {w : World} (hnew : w.approvals.get? env.requestId = none →
      Q ⟨⟩ { w with approvals := w.approvals.set env.requestId row }) (hdup : ∀ e, R e w) :
    wp (insertRequest env row) Q R w := by
  simp only [ApprovalManager.insertRequest, wp_bind, wp_get]
  split
  · exact hdup _
  · rename_i hc
    rw [Bool.not_eq_true, Dict.contains_eq_false_iff] at hc
    exact hnew hc

theorem handleAutoApprove_keeps (hstep : ∀ site, ∀ e ∈ env.steps site, ∀ w, P w → P (w.step e))
    (happrove : KeepsApprove env orderId P) (accountId : String) {w : World} (hw : P w) :
    wp (handleAutoApprove env orderId accountId) (fun status w' => status = .autoApproved ∧ P w')
      (fun _ w' => P w') w := by
  unfold ApprovalManager.handleAutoApprove
  rw [wp_bind]
  have hfirst : Keeps P (do
      insertRequest env { accountId, orderId, status := .settled .autoApproved, requestedAt := env.now
                          expiresAt := env.now }
      modify fun w => { w with
        orders := w.orders.update orderId (fun o => { o with approvalStatus := .autoApproved }) } : M PUnit) := by
    intro w₁ hw₁
    rw [wp_bind]
    exact wp_insertRequest (fun hnew => happrove _ w₁ rfl rfl hnew hw₁) fun _ => hw₁
  refine wp_mono (Execution.keeps_await (hstep .autoApprove) hfirst w hw) (fun _ w₁ hw₁ => ?_)
    (fun _ _ hw₁ => hw₁)
  rw [wp_bind]
  refine wp_await_pure (hstep .autoRecord) hw₁ (fun w₂ hw₂ _ => ?_) fun _ _ hw₂ => hw₂
  rw [wp_bind]
  exact wp_await_pure (hstep .autoNotify) hw₂ (fun w₃ hw₃ _ => ⟨rfl, hw₃⟩) fun _ _ hw₃ => hw₃

theorem Manages.saveMessageId (h : Manages env orderId P₀ P I W D) : ∀ messageId, Keeps P (saveMessageId env messageId)
  | none => keeps_pure _
  | some messageId => Execution.keeps_await (h.stepP .saveMessageId) (keeps_modify (h.save (some messageId)))

theorem Manages.waitForResponse (h : Manages env orderId P₀ P I W D) {w : World} (hw : I w) :
    wp (waitForResponse env) W (fun _ _ => False) w := by
  unfold ApprovalManager.waitForResponse
  rw [wp_bind, wp_modify]
  exact h.wait _ (Async.runSteps_keeps h.stepI hw)

theorem Manages.updateTimeoutMessage (h : Manages env orderId P₀ P I W D) :
    Keeps (D .timeout) (updateTimeoutMessage env) := by
  refine keeps_bind keeps_get fun w => ?_
  split
  · exact Execution.keeps_await_pure (h.stepD .timeoutMessage)
  · exact keeps_pure _

theorem Manages.handleTimeout (h : Manages env orderId P₀ P I W D) {w : World} (hw : W .timeout w) :
    wp (handleTimeout env orderId) (fun _ w' => D .timeout w') (fun _ w' => W .timeout w' ∨ D .timeout w') w := by
  unfold ApprovalManager.handleTimeout
  rw [wp_bind]
  refine wp_await_modify (h.stepW .timeoutUpdate) hw (fun w₁ hw₁ => ?_)
    fun _ w₁ hw₁ => ⟨.inl hw₁, .inr (h.timeout w₁ hw₁)⟩
  have hrest : Keeps (D .timeout) (do
      await env .timeoutCache (pure PUnit.unit)
      ApprovalManager.updateTimeoutMessage env
      await env .timeoutNotify (pure PUnit.unit)
      await env .timeoutRecord (pure PUnit.unit) : M PUnit) :=
    keeps_bind (Execution.keeps_await_pure (h.stepD .timeoutCache)) fun _ =>
      keeps_bind h.updateTimeoutMessage fun _ =>
      keeps_bind (Execution.keeps_await_pure (h.stepD .timeoutNotify)) fun _ =>
      Execution.keeps_await_pure (h.stepD .timeoutRecord)
  exact wp_mono (hrest _ (h.timeout w₁ hw₁)) (fun _ _ h => h) fun _ _ h => .inr h

theorem Manages.settle (h : Manages env orderId P₀ P I W D) {status : ApprovalStatus} {w : World} (hw : W status w) :
    wp (settle env orderId status) (fun _ w' => D status w') (fun _ w' => W .timeout w' ∨ D .timeout w') w := by
  unfold ApprovalManager.settle
  split
  · rename_i hs
    subst hs
    exact h.handleTimeout hw
  · rename_i hs
    exact h.skip status w hs hw

theorem Manages.handleManualApprove (h : Manages env orderId P₀ P I W D) (accountId : String) {w : World}
    (hw : P₀ w) : wp (handleManualApprove env orderId accountId) D
      (fun _ w' => P₀ w' ∨ P w' ∨ W .timeout w' ∨ D .timeout w') w := by
  unfold ApprovalManager.handleManualApprove
  rw [wp_bind]
  refine Execution.wp_await_of (h.stepP₀ .insertApproval) hw (fun w₁ hw₁ _ => ?_) fun f w₁ hw₁ _ => ?_
  · refine wp_insertRequest (fun hnew => ?_) fun _ => .inl hw₁
    have hP := h.insert { accountId, orderId, requestedAt := env.now
                          expiresAt := env.now + env.cfg.humanApprovalTimeoutSec } w₁ rfl rfl hnew hw₁
    rw [wp_bind]
    refine wp_await_pure (h.stepP .cacheRequest) hP (fun w₂ hw₂ _ => ?_) fun _ _ hw₂ => .inr (.inl hw₂)
    rw [wp_bind]
    refine wp_await_pure (h.stepP .sendApprovalRequest) hw₂ (fun w₃ hw₃ _ => ?_) fun _ _ hw₃ => .inr (.inl hw₃)
    rw [wp_bind]
    refine wp_mono (h.saveMessageId env.messageId w₃ hw₃) (fun _ w₄ hw₄ => ?_) fun _ _ hw₄ => .inr (.inl hw₄)
    rw [wp_bind, wp_modify, wp_bind]
    refine wp_mono (h.waitForResponse (h.register accountId env.messageId w₄ hw₄)) (fun status w₅ hw₅ => ?_)
      fun _ _ hfalse => hfalse.elim
    rw [wp_bind]
    refine wp_mono (h.settle hw₅) (fun _ w₆ hw₆ => ?_) fun _ _ hw₆ => .inr (.inr hw₆)
    exact h.unregister status w₆ hw₆
  · exact ⟨.inl hw₁, wp_insertRequest (fun hnew => .inr (.inl (h.insert _ w₁ rfl rfl hnew hw₁))) fun _ => .inl hw₁⟩

/-- An approval request ends approved without asking, or with the status its wait settled on. -/
theorem Manages.requestApproval (h : Manages env orderId P₀ P I W D) (happrove : KeepsApprove env orderId P₀)
    (tradeDecision : TradeDecision)
    (state : PortfolioState) (accountId : String) {w : World} (hw : P₀ w) :
    wp (requestApproval env tradeDecision orderId state accountId)
      (fun status w' =>
        (checkAutoApprove env tradeDecision (portfolioPct tradeDecision state) ≠ none ∧
          status = .autoApproved ∧ P₀ w') ∨ D status w')
      (fun _ w' => P₀ w' ∨ P w' ∨ W .timeout w' ∨ D .timeout w') w := by
  unfold ApprovalManager.requestApproval
  split
  · rename_i reason hreason
    refine wp_mono (handleAutoApprove_keeps h.stepP₀ happrove accountId hw)
      (fun status w' hw' => .inl ⟨?_, hw'⟩) fun _ _ h => .inl h
    rw [hreason]
    exact Option.some_ne_none _
  · exact wp_mono (h.handleManualApprove accountId hw) (fun _ _ h => .inr h) fun _ _ h => h

end ApprovalManager

end TradingAgent
