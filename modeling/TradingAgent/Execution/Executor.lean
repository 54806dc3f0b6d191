/-
The order executor: order row, web verification, approval, broker order, execution, position. Entry and
exit go through the same stages; an exception anywhere ends the run with a failed result.
-/
import TradingAgent.Execution.Approval

namespace TradingAgent

open Execution (M await)

/-- Outcome of a run of the executor. -/
structure ExecutionResult where
  success : Bool
  orderId : Option ℕ := none
  brokerOrderId : Option String := none
  symbol : String
  side : OrderSide
  quantity : ℤ
  fillPrice : Option Decimal := none
  commission : Decimal := 0
  approvalStatus : ApprovalStatus
  webVerifyResult : Option WebVerifyResult := none
  positionId : Option ℕ := none
  decisionIds : List ℕ := []
  error : String := ""

/-- `a or b` on whole numbers. -/
def intOr (a b : ℤ) : ℤ := if a = 0 then b else a

/-- `a or b` on an optional price. -/
def priceOr (a : Option Decimal) (b : Decimal) : Decimal :=
  match a with
  | none => b
  | some p => if p = 0 then b else p

/-! ## Positions -/

/-- What a position is created from. -/
structure CreateArgs where
  symbol : String
  strategyType : StrategyType
  quantity : ℤ
  entryPrice : Decimal
  stopLossPrice : Decimal
  takeProfitPrice : Option Decimal := none
  trailingStopPct : Option Decimal := none
  maxHoldingDays : Option ℤ := none
  entrySessionId : Option ℕ := none
  accountId : String := "default"

/-- The record that is inserted, with the decimal places of its columns. The average cost is the entry price. -/
def CreateArgs.record (args : CreateArgs) (today : ℤ) (id : ℕ) : PositionRecord where
  id := id
  accountId := args.accountId
  symbol := args.symbol
  strategyType := args.strategyType
  quantity := args.quantity
  avgCost := quantize2 args.entryPrice
  entryPrice := quantize2 args.entryPrice
  entryDate := today
  stopLossPrice := quantize2 args.stopLossPrice
  takeProfitPrice := args.takeProfitPrice.map quantize2
  trailingStopPct := args.trailingStopPct.map quantize4
  maxHoldingDays := args.maxHoldingDays
  status := "open"

/-- A record as it is closed, with the decimal places of its columns. The profit is that of the price as it was
given. -/
def PositionRecord.closedOn (today : ℤ) (exitPrice : Decimal) (exitReason : ExitReason) (record : PositionRecord) :
    PositionRecord :=
  { record with
    status := "closed"
    exitPrice := some (quantize2 exitPrice)
    exitDate := some today
    exitReason := some exitReason.value
    realizedPnl := some (quantize2 ((exitPrice - record.avgCost) * record.quantity)) }

namespace PositionManager

variable (env : Env)

/-- Add an open position, at an await site of the caller. Without an entry price the row is refused. -/
def create (site : Site) (symbol : String) (strategyType : StrategyType) (quantity : ℤ)
    (entryPrice : Option Decimal) (stopLossPrice : Decimal) (takeProfitPrice : Option Decimal)
    (accountId : String) (trailingStopPct : Option Decimal := none) (maxHoldingDays : Option ℤ := none) :
    M ℕ :=
  tryCatch
    (await env site (match entryPrice with
      | none => throw (.external "null value in column \"avg_cost\"")
      | some entryPrice => modifyGet fun w => (w.positions.nextId, { w with
          positions := w.positions.insert (CreateArgs.record
            { symbol, strategyType, quantity, entryPrice, stopLossPrice, takeProfitPrice, trailingStopPct
              maxHoldingDays, accountId } env.today) })))
    (fun e => throw (.databaseError ("Position create failed: " ++ env.str e)))

/-- Close a position as a whole; one that is missing or closed raises. -/
def close (positionId : ℕ) (exitPrice : Decimal) (exitReason : ExitReason) : M PUnit :=
  tryCatch
    (await env .closePosition (do
      match (← get).positions.get? positionId with
      | none => throw (.databaseError ("Position not found: id=" ++ toString positionId))
      | some record =>
        if record.status = "closed" then
          throw (.databaseError ("Position already closed: id=" ++ toString positionId))
        else modify (fun w => { w with
          positions := w.positions.update positionId (·.closedOn env.today exitPrice exitReason) })))
    (fun e => match e with
      | .databaseError message => throw (.databaseError message)
      | e => throw (.databaseError ("Position close failed: " ++ env.str e)))

end PositionManager

namespace OrderExecutor

variable (env : Env)

/-! ## Helpers -/

/-- Add a pending order. -/
def createOrder (symbol : String) (side : OrderSide) (orderType : OrderType) (quantity : ℤ) (price : Decimal)
    (accountId : String) : M ℕ :=
  await env .createOrder (modifyGet fun w => (w.orders.nextId, { w with
    orders := w.orders.insert (fun _ => { symbol, side, orderType, quantity, price, accountId
                                          originalQuantity := quantity }) }))

def updateOrder (site : Site) (orderId : ℕ) (fields : Order → Order) : M PUnit :=
  await env site (modify fun w => { w with orders := w.orders.update orderId fields })

def updateOrderSafe (site : Site) (orderId : ℕ) (fields : Order → Order) : M PUnit :=
  tryCatch (updateOrder env site orderId fields) (fun _ => pure ⟨⟩)

/-- Read the order again. -/
def getOrder (orderId : ℕ) : M (Option Order) :=
  await env .getOrder (modifyGet fun w => (w.orders.get? orderId, w.log (.reread (w.orders.get? orderId))))

def recordExecution (orderId : ℕ) (brokerOrderId : String) (fillPrice : Decimal) (fillQuantity : ℤ)
    (commission : Decimal) : M PUnit :=
  await env .recordExecution (modify fun w => { w with
    executions := w.executions ++ [{ orderId, brokerOrderId, fillPrice, fillQuantity, commission
                                     executedAt := env.now }] })

def notifySafe : M PUnit := tryCatch (await env .notify (pure ⟨⟩)) (fun _ => pure ⟨⟩)

def recordDecisionSafe : M (Option ℕ) :=
  tryCatch (some <$> await env .recordDecision (pure env.decisionId)) (fun _ => pure none)

def verify : M WebVerification := await env .verify (pure env.verification)

def getCurrentState : M PortfolioState := await env .getCurrentState (pure (env.portfolio .getCurrentState))

/-- What the executor carries from stage to stage. -/
structure Run where
  symbol : String
  side : OrderSide
  orderType : OrderType
  quantity : ℤ
  price : Decimal
  reason : String
  accountId : String

/-- The result of a run that failed. -/
def failResult (run : Run) (orderId : ℕ) (quantity : ℤ) (approvalStatus : ApprovalStatus)
    (verification : WebVerification) (decisionIds : List ℕ) (error : String) : ExecutionResult :=
  { success := false, orderId := some orderId, symbol := run.symbol, side := run.side, quantity, approvalStatus
    webVerifyResult := some verification.result, decisionIds, error }

/-- The result of a run that an exception ended. -/
def exceptionResult (run : Run) (orderId : Option ℕ) (e : Exn) : ExecutionResult :=
  { success := false, orderId, symbol := run.symbol, side := run.side, quantity := run.quantity
    approvalStatus := .autoApproved, error := env.str e }

/-- An exception after the order was created: the row is marked as failed. -/
def abort (run : Run) (orderId : ℕ) (e : Exn) : M ExecutionResult := do
  updateOrderSafe env .updateFailed orderId (fun o => { o with
    status := .failed, rejectionReason := "예외 발생: " ++ env.str e })
  pure (exceptionResult env run (some orderId) e)

/-! ## Stages -/

/-- The web verification blocks the order. -/
def block (run : Run) (orderId : ℕ) (verification : WebVerification) : M ExecutionResult := do
  updateOrder env .updateBlocked orderId (fun o => { o with
    status := .cancelled, rejectionReason := "Web 검증 차단: " ++ verification.summary })
  notifySafe env
  let did ← recordDecisionSafe env
  pure (failResult run orderId run.quantity .autoApproved verification did.toList
    ("Web 검증 차단: " ++ verification.summary))

/-- The approval was refused or timed out. -/
def cancel (run : Run) (orderId : ℕ) (verification : WebVerification) (approvalStatus : ApprovalStatus)
    (label : String) : M ExecutionResult := do
  updateOrder env .updateCancelled orderId (fun o => { o with status := .cancelled })
  let did ← recordDecisionSafe env
  pure (failResult run orderId run.quantity approvalStatus verification did.toList (label ++ approvalStatus.value))

/-- Hand the order to the broker. A quantity that is not positive is a validation error. -/
def placeOrder (run : Run) (quantity : ℤ) : M OrderResult :=
  match OrderRequest.make? run.symbol run.side run.orderType quantity (some run.price) run.reason run.accountId with
  | none => throw (.validationError "OrderRequest" "quantity")
  | some request => do
    modify (·.log (.placed request))
    let result ← await env .placeOrder (pure (env.placeOrder request))
    modify (·.log (.answered request result))
    pure result

/-- The broker did not fill the order. -/
def brokerFailed (run : Run) (orderId : ℕ) (quantity : ℤ) (approvalStatus : ApprovalStatus)
    (verification : WebVerification) (status : OrderStatus) : M ExecutionResult := do
  updateOrder env .updateBrokerFailed orderId (fun o => { o with
    status := .failed, rejectionReason := "브로커 주문 실패: " ++ status.value })
  pure (failResult run orderId quantity approvalStatus verification [] ("브로커 주문 실패: " ++ status.value))

/-- The order was filled: record the execution, keep the positions up to date with `track`, and report. -/
def fill (run : Run) (orderId : ℕ) (quantity : ℤ) (approvalStatus : ApprovalStatus)
    (verification : WebVerification) (result : OrderResult) (track : ℤ → Decimal → M (Option ℕ)) :
    M ExecutionResult := do
  let fillPrice := priceOr result.filledPrice run.price
  let fillQuantity := intOr result.filledQuantity quantity
  recordExecution env orderId result.orderId fillPrice fillQuantity result.commission
  let positionId ← track fillQuantity fillPrice
  updateOrder env .updateFilled orderId (fun o => { o with
    status := .filled, brokerOrderId := some result.orderId, filledQuantity := fillQuantity
    filledPrice := some fillPrice, commission := result.commission, executedAt := some env.now, positionId })
  notifySafe env
  let did ← recordDecisionSafe env
  pure { success := true, orderId := some orderId, brokerOrderId := some result.orderId, symbol := run.symbol
         side := run.side, quantity := fillQuantity, fillPrice := some fillPrice, commission := result.commission
         approvalStatus, webVerifyResult := some verification.result, positionId, decisionIds := did.toList }

/-- Place the order, and see whether the broker filled it. -/
def execute (run : Run) (orderId : ℕ) (quantity : ℤ) (approvalStatus : ApprovalStatus)
    (verification : WebVerification) (track : ℤ → Decimal → M (Option ℕ)) : M ExecutionResult := do
  let result ← placeOrder env run quantity
  if result.status ≠ .filled ∧ result.status ≠ .partiallyFilled then
    brokerFailed env run orderId quantity approvalStatus verification result.status
  else fill env run orderId quantity approvalStatus verification result track

/-- Ask for approval, and proceed with the status unless it is a refusal or a timeout. -/
def approve (run : Run) (tradeDecision : TradeDecision) (label : String) (orderId : ℕ)
    (verification : WebVerification) (proceed : ℕ → WebVerification → ApprovalStatus → M ExecutionResult) :
    M ExecutionResult := do
  let state ← getCurrentState env
  let status ← ApprovalManager.requestApproval env tradeDecision orderId state run.accountId
  if status = .rejected ∨ status = .timeout then cancel env run orderId verification status label
  else proceed orderId verification status

/-- Verify on the web, and go on unless that blocks the order. -/
def verifyAndApprove (run : Run) (tradeDecision : TradeDecision) (label : String) (orderId : ℕ)
    (proceed : ℕ → WebVerification → ApprovalStatus → M ExecutionResult) : M ExecutionResult := do
  let verification ← verify env
  updateOrder env .updateWebVerify orderId (fun o => { o with
    webVerifyResult := some verification.result, webVerifySummary := verification.summary })
  if verification.result = .blocked then block env run orderId verification
  else approve env run tradeDecision label orderId verification proceed

/-- The stages that entry and exit share: create the order, verify, ask for approval, proceed. An
exception ends the run, and marks the order as failed once there is one. -/
def submit (run : Run) (tradeDecision : TradeDecision) (label : String)
    (proceed : ℕ → WebVerification → ApprovalStatus → M ExecutionResult) : M ExecutionResult :=
  tryCatch (do
    let orderId ← createOrder env run.symbol run.side run.orderType run.quantity run.price run.accountId
    tryCatch (verifyAndApprove env run tradeDecision label orderId proceed) (abort env run orderId))
  (fun e => pure (exceptionResult env run none e))

/-! ## Entry -/

structure EntryArgs where
  tradeDecision : TradeDecision
  strategyType : StrategyType
  accountId : String := "default"

/-- The data of an entry. -/
def EntryArgs.run (args : EntryArgs) : Run :=
  { symbol := args.tradeDecision.symbol
    side := actionToSide args.tradeDecision.action
    orderType := args.tradeDecision.orderType
    quantity := args.tradeDecision.quantity
    price := args.tradeDecision.price.getD 0
    reason := String.ofList (args.tradeDecision.reasoning.toList.take 200)
    accountId := args.accountId }

variable (args : EntryArgs)

/-- Track an entry: a new position, or none if that fails. -/
def trackEntry (fillQuantity : ℤ) (fillPrice : Decimal) : M (Option ℕ) :=
  tryCatch
    (some <$> PositionManager.create env .createPosition args.tradeDecision.symbol args.strategyType fillQuantity
      (some fillPrice) (args.tradeDecision.stopLossPrice.getD 0) args.tradeDecision.takeProfitPrice args.accountId)
    (fun _ => pure none)

/-- The risk check of a modified quantity. -/
def recheck (modifiedQty : ℤ) : RiskCheckResult :=
  AlgoRiskManager.check env.cfg env.returns (env.portfolio .riskCheck) args.run.symbol
    (if args.run.side = .buy then .buy else .sell) modifiedQty args.run.price args.tradeDecision.stopLossPrice ""

/-- The modified quantity breaks a risk rule. -/
def riskBlocked (orderId : ℕ) (verification : WebVerification) (approvalStatus : ApprovalStatus)
    (modifiedQty : ℤ) (violations : List String) : M ExecutionResult := do
  updateOrder env .updateRiskBlocked orderId (fun o => { o with
    status := .cancelled, rejectionReason := "리스크 재검증 실패: " ++ String.intercalate ", " violations })
  notifySafe env
  let did ← recordDecisionSafe env
  pure (failResult args.run orderId modifiedQty approvalStatus verification did.toList
    ("리스크 재검증 실패: [" ++ String.intercalate ", " (violations.map (fun v => "'" ++ v ++ "'")) ++ "]"))

/-- A modified quantity is checked again before it goes out. -/
def recheckEntry (orderId : ℕ) (verification : WebVerification) (approvalStatus : ApprovalStatus)
    (modifiedQty : ℤ) : M ExecutionResult := do
  let risk ← await env .riskCheck (pure (recheck env args modifiedQty))
  if risk.passed then
    execute env args.run orderId (intOr risk.adjustedQuantity modifiedQty) approvalStatus verification
      (trackEntry env args)
  else riskBlocked env args orderId verification approvalStatus modifiedQty risk.violations

/-- The approved order: its row is read again for a modified quantity. -/
def confirmEntry (orderId : ℕ) (verification : WebVerification) (approvalStatus : ApprovalStatus) :
    M ExecutionResult := do
  let refreshed ← getOrder env orderId
  match refreshed.bind (·.modifiedQuantity) with
  | some modifiedQty => recheckEntry env args orderId verification approvalStatus modifiedQty
  | none => execute env args.run orderId args.run.quantity approvalStatus verification (trackEntry env args)

/-- Run an entry order. -/
def executeEntry : M ExecutionResult :=
  submit env args.run args.tradeDecision "승인 " (confirmEntry env args)

/-! ## Exit -/

/-- The action that an exit reason stands for. -/
def exitReasonToAction : ExitReason → DecisionAction
  | .stopLoss => .stopLoss
  | .takeProfit => .takeProfit
  | .trailingStop | .timeBased | .fundamental | .llmSignal | .drawdown | .manual => .sell

structure ExitArgs where
  exitSignal : ExitSignal
  position : PositionRecord
  accountId : String := "default"

variable (exit : ExitArgs)

/-- A stop loss that is due at once goes out as a market order. -/
def ExitArgs.orderType : OrderType :=
  if exit.exitSignal.reason = .stopLoss ∧ exit.exitSignal.urgency = "immediate" then .market else .limit

def ExitArgs.run : Run :=
  { symbol := exit.exitSignal.symbol
    side := .sell
    orderType := exit.orderType
    quantity := exit.position.quantity
    price := exit.exitSignal.currentPrice
    reason := ""
    accountId := exit.accountId }

/-- The exit as the approval manager sees it. -/
def buildExitTradeDecision : TradeDecision :=
  { symbol := exit.exitSignal.symbol
    action := exitReasonToAction exit.exitSignal.reason
    orderType := exit.orderType
    quantity := exit.position.quantity
    price := some exit.exitSignal.currentPrice
    confidence := 9 / 10 }

/-- Track an exit: the position is closed; a failure of that is only logged. -/
def trackExit (_fillQuantity : ℤ) (fillPrice : Decimal) : M (Option ℕ) :=
  tryCatch
    (do
      PositionManager.close env exit.position.id fillPrice exit.exitSignal.reason
      pure (some exit.position.id))
    (fun _ => pure (some exit.position.id))

/-- The approved exit goes out with the quantity of the position. -/
def confirmExit (orderId : ℕ) (verification : WebVerification) (approvalStatus : ApprovalStatus) :
    M ExecutionResult :=
  execute env exit.run orderId exit.run.quantity approvalStatus verification (trackExit env exit)

/-- Run an exit order. -/
def executeExit : M ExecutionResult :=
  submit env exit.run (buildExitTradeDecision exit) "청산 승인 " (confirmExit env exit)

end OrderExecutor

/-! ## A plain environment -/

/-- A broker that fills every order at its price. -/
def fillAll (r : OrderRequest) : OrderResult :=
  { orderId := "1", symbol := r.symbol, side := r.side, orderType := r.orderType, quantity := r.quantity
    price := r.price.getD 0, status := .filled, filledQuantity := r.quantity, filledPrice := r.price, timestamp := 0 }

/-- Nothing happens at the await sites, nothing fails, the web verification is safe, and the portfolio
is ten million won in cash. -/
def plainEnv : Env :=
  { steps := fun _ => []
    requestId := 1
    verification := { symbol := "005930", result := .safe, summary := "" }
    portfolio := fun _ => { totalValue := 10000000, cash := 10000000 }
    returns := { recentCloses := fun _ _ => none, pctChange := fun _ => [], corr := fun _ _ => none }
    placeOrder := fillAll
    str := fun _ => "" }

/-- Buy ten shares at 70,000 won. -/
def buyTen : OrderExecutor.EntryArgs :=
  { tradeDecision := { symbol := "005930", action := .buy, quantity := 10, price := some 70000 }
    strategyType := .swing }

end TradingAgent
