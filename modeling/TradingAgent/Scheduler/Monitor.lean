/-
The trading monitor: four checks that send alerts, each at most once a day. A marker in Redis stands for an alert
that was sent; the bot does not tell whether it was delivered. What the collaborators answer during one call of
`check_all` is given, site by site; what goes to the chat is recorded.
-/
import TradingAgent.Llm.CostTracker
import TradingAgent.Core.Models
import TradingAgent.Data.Cache
import TradingAgent.Lib.PyDate

namespace TradingAgent

open Wp

inductive MonitoringAlertType
  | stopLossProximity | sectorConcentration | llmBudget | portfolioDrawdown
  deriving DecidableEq

def MonitoringAlertType.value : MonitoringAlertType → String
  | .stopLossProximity => "stop_loss_proximity"
  | .sectorConcentration => "sector_concentration"
  | .llmBudget => "llm_budget"
  | .portfolioDrawdown => "portfolio_drawdown"

structure MonitoringAlert where
  alertType : MonitoringAlertType
  symbol : Option String := none
  message : String
  currentValue : Decimal
  thresholdValue : Decimal
  timestamp : ℤ
  deriving DecidableEq

/-! ## The bot -/

/-- What becomes of a message that is handed to Telegram. -/
inductive Sending
  | delivered (messageId : ℤ)
  | apiError
  -- an exception that the bot does not catch
  | raised (e : Exn)

/-- Send a message, unless the bot is disabled. An API error is only logged. -/
def TelegramBot.sendMessage (disabled : Bool) (sending : Sending) : Except Exn (Option ℤ) :=
  if disabled then .ok none
  else
    match sending with
    | .delivered messageId => .ok (some messageId)
    | .apiError => .ok none
    | .raised e => .error e

/-- A message arrives if the bot is not disabled and Telegram delivers it. -/
def TelegramBot.delivers (disabled : Bool) : Sending → Bool
  | .delivered _ => !disabled
  | _ => false

/-! ## The monitor -/

/-- Where a call of `check_all` stands: at a position by its place in the list, at a sector, or at one of the two
checks without a loop. -/
inductive CheckSite
  | position (i : ℕ)
  | sector (name : String)
  | llmBudget
  | drawdown
  deriving DecidableEq

/-- What the clock, the collaborators and the servers answer during one call. -/
structure MonitorEnv where
  today : CheckSite → PyDate
  now : CheckSite → ℤ
  positions : Except Exn (List PositionRecord)
  price : ℕ → Except Exn Decimal
  sectorState : Except Exn PortfolioState
  cost : CostTracker
  drawdownState : Except Exn PortfolioState
  /-- a read of the cache that fails -/
  cacheGet : CheckSite → Option Exn
  /-- whether a marker reaches the cache, and what the client raises -/
  cacheWritten : CheckSite → Bool
  cacheSet : CheckSite → Option Exn
  send : CheckSite → Sending
  /-- the text of a decimal with one digit behind the point -/
  format1 : Decimal → String

/-- A monitor of an account. -/
structure TradingMonitor where
  accountId : String
  botDisabled : Bool := false
  stopLossProximityPct : Decimal := 2
  sectorWeightWarnPct : Decimal := 25
  llmBudgetWarnPct : Decimal := 80
  maxDrawdownPct : Decimal := 10

/-- An alert that was handed to the bot. -/
structure Sent where
  site : CheckSite
  accountId : String
  alert : MonitoringAlert
  day : PyDate
  time : ℤ
  delivered : Bool
  deriving DecidableEq

/-- The markers in Redis with the times of their end, and the alerts that were handed to the bot. -/
structure Alerts where
  cache : Redis ℤ := Dict.empty
  sent : List Sent := []

namespace TradingMonitor

def alertNs : String := "alert"

def alertTtl : ℤ := 86400

abbrev M := EStateM Exn Alerts

variable (m : TradingMonitor) (env : MonitorEnv)

/-! ## Markers and messages -/

/-- Whether there is a marker; a read that fails counts as none. -/
def isAlertSentToday (site : CheckSite) (dedupKey : String) : M Bool :=
  tryCatch (do
    match env.cacheGet site with
    | some e => throw e
    | none =>
      let w ← get
      pure ((RedisCache.get w.cache alertNs dedupKey).any (fun ends => env.now site < ends)))
  (fun _ => pure false)

/-- Write a marker; a failure is only logged. -/
def markAlertSent (site : CheckSite) (dedupKey : String) : M PUnit :=
  tryCatch (do
    if env.cacheWritten site then
      modify fun w => { w with cache := RedisCache.set w.cache alertNs dedupKey (env.now site + alertTtl) }
    match env.cacheSet site with
    | some e => throw e
    | none => pure ⟨⟩)
  (fun _ => pure ⟨⟩)

/-- Hand an alert to the bot. -/
def sendAlert (site : CheckSite) (alert : MonitoringAlert) : M PUnit := do
  modify fun w => { w with sent := w.sent ++ [{
    site, accountId := m.accountId, alert, day := env.today site, time := env.now site
    delivered := TelegramBot.delivers m.botDisabled (env.send site) }] }
  match TelegramBot.sendMessage m.botDisabled (env.send site) with
  | .ok _ => pure ⟨⟩
  | .error e => throw e

/-- Send an alert, mark it and return it. -/
def raiseAlert (site : CheckSite) (dedupKey : String) (alert : MonitoringAlert) : M (Option MonitoringAlert) := do
  m.sendAlert env site alert
  markAlertSent env site dedupKey
  pure (some alert)

/-- The alerts of the checks of a loop. -/
def collect : List (M (Option MonitoringAlert)) → M (List MonitoringAlert)
  | [] => pure []
  | check :: checks => do
    let alert ← check
    let alerts ← collect checks
    pure (alert.toList ++ alerts)

/-- An answer of a collaborator. -/
def liftExcept {α : Type} (x : Except Exn α) : M α :=
  match x with
  | .ok a => pure a
  | .error e => throw e

/-! ## The checks -/

/-- The distance of a price from the stop loss, in percent of the price. -/
def distancePct (current stopLossPrice : Decimal) : Decimal := (current - stopLossPrice) / current * 100

/-- The check of one position; a price that cannot be read ends it. -/
def checkPosition (i : ℕ) (pos : PositionRecord) : M (Option MonitoringAlert) :=
  let site := CheckSite.position i
  if pos.stopLossPrice ≤ 0 then pure none
  else do
    let dedupKey := "stop_loss_proximity:" ++ m.accountId ++ ":" ++ pos.symbol ++ ":" ++ (env.today site).isoformat
    if ← isAlertSentToday env site dedupKey then pure none
    else
      match env.price i with
      | .error _ => pure none
      | .ok current =>
        if current ≤ 0 then pure none
        else if distancePct current pos.stopLossPrice ≤ m.stopLossProximityPct then
          m.raiseAlert env site dedupKey {
            alertType := .stopLossProximity
            symbol := some pos.symbol
            message := pos.symbol ++ " 현재가가 손절가에 " ++ env.format1 (distancePct current pos.stopLossPrice) ++ "% 근접"
            currentValue := distancePct current pos.stopLossPrice
            thresholdValue := m.stopLossProximityPct
            timestamp := env.now site }
        else pure none

def checkStopLossProximity : M (List MonitoringAlert) := do
  let positions ← liftExcept env.positions
  collect (positions.zipIdx.map (fun p => m.checkPosition env p.2 p.1))

/-- The check of one sector. -/
def checkSector (sector : String) (allocation : Decimal) : M (Option MonitoringAlert) :=
  let site := CheckSite.sector sector
  if allocation ≤ m.sectorWeightWarnPct then pure none
  else do
    let dedupKey := "sector_concentration:" ++ m.accountId ++ ":" ++ sector ++ ":" ++ (env.today site).isoformat
    if ← isAlertSentToday env site dedupKey then pure none
    else
      m.raiseAlert env site dedupKey {
        alertType := .sectorConcentration
        symbol := some sector
        message := sector ++ " 섹터 비중 " ++ env.format1 allocation ++ "%로 경고 기준 초과"
        currentValue := allocation
        thresholdValue := m.sectorWeightWarnPct
        timestamp := env.now site }

def checkSectorConcentration : M (List MonitoringAlert) := do
  let state ← liftExcept env.sectorState
  collect (state.sectorAllocations.items.map (fun e => m.checkSector env e.1 e.2))

/-- The budget is that of all accounts, and so is its marker. -/
def checkLlmBudget : M (List MonitoringAlert) := do
  let budget ← liftExcept env.cost.getBudgetStatus
  if budget.usagePercent < m.llmBudgetWarnPct then pure []
  else
    let dedupKey := "llm_budget:monthly:" ++ (env.today .llmBudget).isoformat
    if ← isAlertSentToday env .llmBudget dedupKey then pure []
    else
      let alert ← m.raiseAlert env .llmBudget dedupKey {
        alertType := .llmBudget
        message := "LLM 예산 사용률 " ++ env.format1 budget.usagePercent ++ "%"
        currentValue := budget.usagePercent
        thresholdValue := m.llmBudgetWarnPct
        timestamp := env.now .llmBudget }
      pure alert.toList

def checkPortfolioDrawdown : M (List MonitoringAlert) := do
  let state ← liftExcept env.drawdownState
  if state.drawdownPct < m.maxDrawdownPct then pure []
  else
    let dedupKey := "portfolio_drawdown:" ++ m.accountId ++ ":portfolio:" ++ (env.today .drawdown).isoformat
    if ← isAlertSentToday env .drawdown dedupKey then pure []
    else
      let alert ← m.raiseAlert env .drawdown dedupKey {
        alertType := .portfolioDrawdown
        message := "포트폴리오 낙폭 " ++ env.format1 state.drawdownPct ++ "%로 최대 허용치 초과"
        currentValue := state.drawdownPct
        thresholdValue := m.maxDrawdownPct
        timestamp := env.now .drawdown }
      pure alert.toList

/-- A check that raises is skipped. -/
def orSkip (checker : M (List MonitoringAlert)) : M (List MonitoringAlert) := tryCatch checker (fun _ => pure [])

/-- Run the four checks one after the other. -/
def checkAll : M (List MonitoringAlert) := do
  let proximity ← orSkip (m.checkStopLossProximity env)
  let concentration ← orSkip (m.checkSectorConcentration env)
  let budget ← orSkip (m.checkLlmBudget env)
  let drawdown ← orSkip (m.checkPortfolioDrawdown env)
  pure (proximity ++ concentration ++ budget ++ drawdown)

end TradingMonitor

end TradingAgent
