/-
The domain models that cross component borders: portfolio states, orders and their results, trade
decisions and exit signals. A model whose constructor validates a field carries that check.
-/
import TradingAgent.Core.Enums
import TradingAgent.Core.Settings
import TradingAgent.Lib.Dict

namespace TradingAgent

/-! ## Orders -/

/-- An order request. The quantity of a validated request is positive. -/
structure OrderRequest where
  accountId : String := "default"
  symbol : String
  side : OrderSide
  orderType : OrderType
  quantity : ℤ
  price : Option Decimal := none
  reason : String := ""
  quantity_pos : 0 < quantity

/-- The constructor of a request: a quantity that is not positive is a validation error. -/
def OrderRequest.make? (symbol : String) (side : OrderSide) (orderType : OrderType) (quantity : ℤ)
    (price : Option Decimal) (reason : String) (accountId : String := "default") :
    Option OrderRequest :=
  if h : 0 < quantity then
    some { accountId, symbol, side, orderType, quantity, price, reason, quantity_pos := h }
  else none

/-- What the broker answers to an order; the time is that of the trading day. -/
structure OrderResult where
  accountId : String := "default"
  orderId : String
  symbol : String
  side : OrderSide
  orderType : OrderType
  quantity : ℤ
  price : Decimal
  status : OrderStatus
  filledQuantity : ℤ := 0
  filledPrice : Option Decimal := none
  commission : Decimal := 0
  timestamp : ℤ
  deriving DecidableEq

/-! ## Portfolio -/

/-- A holding as the broker reports it. -/
structure Position where
  symbol : String
  quantity : ℤ
  averageCost : Decimal
  currentPrice : Decimal
  marketValue : Decimal := 0
  unrealizedPnl : Decimal := 0
  unrealizedPnlPct : Decimal := 0
  status : PositionStatus := .isOpen
  entryDate : ℤ := 0

/-- The balance of an account; the time is the current date, none before there is one. -/
structure AccountBalance where
  accountId : String := "default"
  totalAssets : Decimal
  cash : Decimal
  invested : Decimal
  unrealizedPnl : Decimal := 0
  realizedPnl : Decimal := 0
  dailyPnl : Decimal := 0
  dailyPnlPct : Decimal := 0
  positionsCount : ℕ := 0
  timestamp : Option ℤ
  deriving DecidableEq

/-- A tracked position from entry to exit; `status` is `"open"` or `"closed"`. -/
structure PositionRecord where
  id : ℕ
  accountId : String := "default"
  symbol : String
  strategyType : StrategyType
  quantity : ℤ
  avgCost : Decimal
  entryPrice : Decimal
  entryDate : ℤ
  stopLossPrice : Decimal
  takeProfitPrice : Option Decimal := none
  trailingStopPct : Option Decimal := none
  maxHoldingDays : Option ℤ := none
  status : String := "open"
  exitPrice : Option Decimal := none
  exitDate : Option ℤ := none
  exitReason : Option String := none
  realizedPnl : Option Decimal := none
  deriving DecidableEq

/-- Snapshot of the portfolio. -/
structure PortfolioState where
  accountId : String := "default"
  totalValue : Decimal
  cash : Decimal
  dailyPnl : Decimal := 0
  dailyPnlPct : Decimal := 0
  drawdownPct : Decimal := 0
  positions : List Position := []
  sectorAllocations : Dict String Decimal := Dict.empty
  dailyTradeCount : ℤ := 0
  invested : Decimal := 0
  unrealizedPnl : Decimal := 0
  peakValue : Decimal := 0
  timestamp : ℤ := 0

/-- The stored portfolio of an account and day. -/
structure PortfolioSnapshot where
  id : ℕ
  snapshotDate : ℤ
  totalValue : Decimal
  cash : Decimal
  invested : Decimal
  unrealizedPnl : Decimal
  realizedPnlDaily : Decimal
  peakValue : Decimal
  drawdownPct : Decimal
  positionsCount : ℕ
  tradeCountDaily : ℕ
  accountId : String := "default"

/-- A signal to close a position. -/
structure ExitSignal where
  symbol : String
  reason : ExitReason
  urgency : String
  currentPrice : Decimal
  triggerPrice : Option Decimal := none
  unrealizedPnlPct : Decimal
  recommendedAction : DecisionAction

/-- Outcome of the algorithmic risk check. -/
structure RiskCheckResult where
  passed : Bool
  symbol : String
  violations : List String
  warnings : List String
  adjustedQuantity : ℤ
  adjustedAmountKrw : Decimal
  maxAllowedQuantity : ℤ
  reasoning : String

/-! ## Signals and decisions -/

/-- Why a signal was raised. -/
inductive SignalReason
  | sma (short long : ℤ) (rsi threshold : ℚ)
  | swing (count minimum : ℤ)
  | replay (text : String)
  -- the entries of the two live strategies; an average that is not a number is `none`
  | positionEntry (confidence fundamentalScore : Decimal) (sma20 sma60 : Option ℚ)
      (atr stopLoss takeProfit : Decimal) (quantity : ℤ)
  | swingEntry (confidence : Decimal) (conditions : List String) (count : ℕ)
      (stopLoss takeProfit : Decimal) (quantity : ℤ)
  deriving DecidableEq

/-- A trade signal. -/
structure Signal where
  symbol : String
  action : SignalAction
  confidence : Decimal
  targetPrice : Option Decimal := none
  stopLossPrice : Option Decimal := none
  quantity : ℤ := 0
  positionValueKrw : Decimal := 0
  reasoning : SignalReason
  deriving DecidableEq

/-- A decision of the trader. -/
structure TradeDecision where
  symbol : String
  action : DecisionAction
  orderType : OrderType := .limit
  quantity : ℤ := 0
  price : Option Decimal := none
  stopLossPrice : Option Decimal := none
  takeProfitPrice : Option Decimal := none
  reasoning : String := ""
  confidence : Decimal := 0

/-- A daily bar as the broker delivers it. -/
structure OHLCV where
  date : ℤ
  high : Decimal
  low : Decimal
  close : Decimal

/-- What the analyst found out about a stock. -/
structure StockAnalysis where
  symbol : String
  action : DecisionAction
  confidence : Decimal
  fundamentalScore : Decimal := 0
  currentPrice : Option Decimal := none

/-- What the analyst found out about the market. -/
structure MarketCondition where
  condition : String
  confidence : Decimal

/-- What the risk manager makes of an analysis. -/
structure RiskAssessment where
  symbol : String
  approved : Bool
  confidence : Decimal

/-- Output of the analysis pipeline. -/
structure PipelineResult where
  stockAnalyses : List StockAnalysis := []
  tradeDecisions : List TradeDecision := []
  marketCondition : Option MarketCondition := none
  riskAssessments : List RiskAssessment := []
  symbolsRequested : List String := []
  symbolsAnalyzed : List String := []
  symbolsSkipped : List String := []
  totalLlmCostUsd : Decimal := 0
  totalLlmCalls : ℕ := 0
  errors : List String := []
  success : Bool := true
  accountId : String := "default"

/-- Verdict of the web search verification. -/
structure WebVerification where
  symbol : String
  result : WebVerifyResult
  summary : String
  issuesFound : List String := []
  newsChecked : ℤ := 0
  llmCostUsd : Decimal := 0
  reasoning : String := ""

end TradingAgent
