/-
The approval manager: automatic approval, or a request that waits for a callback until a timer fires.
Everything it calls outside is an `await`; the environment of a run says what the callbacks and the API
do there, which calls fail, and what the calls return.
-/
import TradingAgent.Execution.Responses
import TradingAgent.Strategy.RiskManager
import TradingAgent.Strategy.Exit

namespace TradingAgent

/-- The await sites of the executor, the approval manager and the strategy route. A run passes each of
them at most once. -/
inductive Site
  | createOrder | verify | updateWebVerify | updateBlocked | notify | recordDecision | getCurrentState
  | autoApprove | autoRecord | autoNotify
  | insertApproval | cacheRequest | sendApprovalRequest | saveMessageId | waitForResponse
  | timeoutUpdate | timeoutCache | timeoutMessage | timeoutNotify | timeoutRecord
  | updateCancelled | getOrder | riskCheck | updateRiskBlocked
  | placeOrder | updateBrokerFailed | recordExecution | createPosition | closePosition | updateFilled
  | updateFailed
  | generateSignals | recordPosition (i : ℕ)
  deriving DecidableEq

/-- The environment of one run: what happens at each await site, and what the calls outside return. -/
structure Env extends Async.Schedule Exn Site Step where
  cfg : Settings := {}
  /-- `uuid4()` -/
  requestId : RequestId
  messageId : Option ℤ := none
  /-- the timer of the wait fires even though the event is set -/
  timerFires : Bool := false
  verification : WebVerification
  /-- the state of the portfolio at each await site -/
  portfolio : Site → PortfolioState
  returns : ReturnsSource
  placeOrder : OrderRequest → OrderResult
  decisionId : ℕ := 0
  now : ℤ := 0
  today : ℤ := 0
  /-- `str(exc)` -/
  str : Exn → String

namespace Execution

/-- Programs over the world. -/
abbrev M := EStateM Exn World

/-- Await a call at a site. -/
def await {α : Type} (env : Env) (site : Site) (op : M α) : M α :=
  Async.await World.step env.toSchedule site op

end Execution

open Execution (M await)

/-- The side of an order for an action; an action without one buys. -/
def actionToSide : DecisionAction → OrderSide
  | .buy => .buy
  | .sell => .sell
  | .stopLoss => .sell
  | .takeProfit => .sell
  | .hold | .approve | .reject => .buy

namespace ApprovalManager

/-- Why an order is approved without asking. -/
inductive AutoApproveReason
  | humanApprovalDisabled
  | exitOrder (action : DecisionAction)
  | smallSell (portfolioPct : Decimal)

variable (env : Env)

def positionValue (tradeDecision : TradeDecision) : Decimal :=
  tradeDecision.quantity * tradeDecision.price.getD 0

/-- The value of the position in percent of the portfolio, zero for a portfolio without value. -/
def portfolioPct (tradeDecision : TradeDecision) (state : PortfolioState) : Decimal :=
  if state.totalValue > 0 then positionValue tradeDecision / state.totalValue * 100 else 0

/-- The conditions of automatic approval, in their order. -/
def checkAutoApprove (tradeDecision : TradeDecision) (portfolioPct : Decimal) : Option AutoApproveReason :=
  if env.cfg.humanApprovalRequired = false then some .humanApprovalDisabled
  else if tradeDecision.action = .stopLoss ∨ tradeDecision.action = .takeProfit then
    some (.exitOrder tradeDecision.action)
  else if tradeDecision.action = .sell ∧ tradeDecision.price.isSome ∧
      portfolioPct ≤ env.cfg.autoExecuteMaxPortfolioPct then
    some (.smallSell portfolioPct)
  else none

/-- Insert an approval row; request ids are unique. -/
def insertRequest (row : ApprovalRequestDB) : M PUnit := do
  if (← get).approvals.contains env.requestId then throw (.databaseError "duplicate request_id")
  else modify (fun w => { w with approvals := w.approvals.set env.requestId row })

/-! ## Automatic approval -/

def handleAutoApprove (orderId : ℕ) (accountId : String) : M ApprovalStatus := do
  await env .autoApprove (do
    insertRequest env {
      accountId, orderId, status := .settled .autoApproved, requestedAt := env.now, expiresAt := env.now }
    modify (fun w => { w with
      orders := w.orders.update orderId (fun o => { o with approvalStatus := .autoApproved }) }))
  await env .autoRecord (pure ⟨⟩)
  await env .autoNotify (pure ⟨⟩)
  pure .autoApproved

/-! ## Manual approval -/

/-- Store the id of the Telegram message, if one was sent. -/
def saveMessageId : Option ℤ → M PUnit
  | none => pure ⟨⟩
  | some messageId => await env .saveMessageId (modify fun w => { w with
      approvals := w.approvals.modify env.requestId (fun r => { r with telegramMessageId := some messageId }) })

/-- Set up the event on which the run waits. -/
def register (accountId : String) (messageId : Option ℤ) (w : World) : World :=
  { w with
    pendingEvents := w.pendingEvents.set env.requestId false
    pendingMessageIds := match messageId with
      | some messageId => w.pendingMessageIds.set env.requestId messageId
      | none => w.pendingMessageIds
    pendingAccountIds := w.pendingAccountIds.set env.requestId accountId }

/-- The entries of the request go, apart from its modified quantity. -/
def unregister (w : World) : World :=
  { w with
    pendingEvents := w.pendingEvents.erase env.requestId
    pendingResults := w.pendingResults.erase env.requestId
    pendingMessageIds := w.pendingMessageIds.erase env.requestId
    pendingAccountIds := w.pendingAccountIds.erase env.requestId }

/-- How the wait ends in `w`: with the stored result if the event is set and the timer does not come
first, with a timeout otherwise. -/
def endWait (w : World) : ApprovalStatus × World :=
  if w.pendingEvents.get? env.requestId = some true ∧ env.timerFires = false then
    let status := (w.pendingResults.get? env.requestId).getD .timeout
    (status, w.log (.waitEnded env.requestId status))
  else (.timeout, (w.log (.accepted env.requestId .timeout)).log (.waitEnded env.requestId .timeout))

/-- Wait for the event, while the others take their steps. -/
def waitForResponse : M ApprovalStatus := do
  modify (Async.runSteps World.step (env.steps .waitForResponse))
  modifyGet (endWait env)

/-- The Telegram message of the request loses its buttons, if there is one. -/
def updateTimeoutMessage : M PUnit := do
  if (← get).pendingMessageIds.contains env.requestId then await env .timeoutMessage (pure ⟨⟩)
  else pure ⟨⟩

def handleTimeout (orderId : ℕ) : M PUnit := do
  await env .timeoutUpdate (modify fun w => { w with
    approvals := w.approvals.modify env.requestId (fun r => { r with status := .settled .timeout })
    orders := w.orders.update orderId (fun o => { o with approvalStatus := .timeout }) })
  await env .timeoutCache (pure ⟨⟩)
  updateTimeoutMessage env
  await env .timeoutNotify (pure ⟨⟩)
  await env .timeoutRecord (pure ⟨⟩)

/-- What follows a status: a timeout is written down. -/
def settle (orderId : ℕ) (status : ApprovalStatus) : M PUnit :=
  if status = .timeout then handleTimeout env orderId else pure ⟨⟩

def handleManualApprove (orderId : ℕ) (accountId : String) : M ApprovalStatus := do
  await env .insertApproval (insertRequest env {
    accountId, orderId, requestedAt := env.now, expiresAt := env.now + env.cfg.humanApprovalTimeoutSec })
  await env .cacheRequest (pure ⟨⟩)
  let messageId ← await env .sendApprovalRequest (pure env.messageId)
  saveMessageId env messageId
  modify (register env accountId messageId)
  let status ← waitForResponse env
  settle env orderId status
  modify (unregister env)
  pure status

/-- Process an approval request: approve it automatically, or ask on Telegram and wait. -/
def requestApproval (tradeDecision : TradeDecision) (orderId : ℕ) (portfolioState : PortfolioState)
    (accountId : String) : M ApprovalStatus :=
  match checkAutoApprove env tradeDecision (portfolioPct tradeDecision portfolioState) with
  | some _ => handleAutoApprove env orderId accountId
  | none => handleManualApprove env orderId accountId

/-- The quantity of a modified approval, as the manager remembers it. -/
def getModifiedQuantity (w : World) (requestId : RequestId) : Option ℤ := w.modifiedQuantities.get? requestId

end ApprovalManager

end TradingAgent
