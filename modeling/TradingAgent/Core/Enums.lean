/-
The domain enumerations. Each is a string enumeration in the source: `value` is the stored
spelling and `ofValue?` the constructor call on a string, which fails on any other spelling.
-/
import Mathlib.Tactic.Common

namespace TradingAgent

/-- Order direction. -/
inductive OrderSide
  | buy | sell
  deriving DecidableEq, Repr

/-- Order type. -/
inductive OrderType
  | market | limit
  deriving DecidableEq, Repr

/-- Order lifecycle status. -/
inductive OrderStatus
  | pending | submitted | filled | partiallyFilled | cancelled | rejected | failed
  deriving DecidableEq, Repr

/-- Position status. -/
inductive PositionStatus
  | isOpen | closed | partiallyClosed
  deriving DecidableEq, Repr

/-- Analysis signal action. -/
inductive SignalAction
  | buy | sell | hold
  deriving DecidableEq, Repr

/-- Trade approval status. -/
inductive ApprovalStatus
  | autoApproved | approved | rejected | timeout
  deriving DecidableEq, Repr

/-- Decision action type. -/
inductive DecisionAction
  | buy | sell | hold | approve | reject | stopLoss | takeProfit
  deriving DecidableEq, Repr

/-- Strategy type: `position` over weeks to months, `swing` over days to weeks. -/
inductive StrategyType
  | position | swing
  deriving DecidableEq, Repr

/-- Why a position was closed. -/
inductive ExitReason
  | stopLoss | takeProfit | trailingStop | timeBased | fundamental | llmSignal | drawdown | manual
  deriving DecidableEq, Repr

/-- Final verdict of the web search verification. -/
inductive WebVerifyResult
  | safe | warning | blocked
  deriving DecidableEq, Repr

/-- Stock market. -/
inductive MarketType
  | kospi | kosdaq
  deriving DecidableEq, Repr

/-- Kind of a financial report. -/
inductive ReportType
  | annual | semiAnnual | quarterly
  deriving DecidableEq, Repr

/-- Sentiment of a news article. -/
inductive SentimentLabel
  | positive | negative | neutral
  deriving DecidableEq, Repr

/-- External data source. -/
inductive DataSourceType
  | kis | dart | ecos | fred | naver | pykrx
  deriving DecidableEq, Repr

/-- Stage of the decision pipeline. -/
inductive DecisionStage
  | marketAnalysis | stockAnalysis | riskCheck | tradeDecision | approval | execution | exit
  deriving DecidableEq, Repr

/-- Kind of an agent. -/
inductive AgentType
  | marketAnalyst | stockAnalyst | riskManager | trader | sentimentAnalyzer | reportGenerator | webVerifier
  deriving DecidableEq, Repr

/-- Provider of a language model. -/
inductive LLMProviderType
  | openai | anthropic | google
  deriving DecidableEq, Repr

/-- How an agent's calls are routed: to one model, or on to a second one. -/
inductive RoutingMode
  | fixed | escalation
  deriving DecidableEq, Repr

/-- Role of a message to a language model. -/
inductive MessageRole
  | system | user | assistant | tool
  deriving DecidableEq, Repr

/-- Status of a backtest run. -/
inductive BacktestStatus
  | pending | running | completed | failed
  deriving DecidableEq, Repr

/-- Signal generation mode of a backtest. -/
inductive BacktestMode
  | technical | llmReplay | llmLive
  deriving DecidableEq, Repr

/-! ## Spellings -/

def OrderSide.value : OrderSide → String
  | .buy => "buy"
  | .sell => "sell"

def OrderStatus.value : OrderStatus → String
  | .pending => "pending"
  | .submitted => "submitted"
  | .filled => "filled"
  | .partiallyFilled => "partially_filled"
  | .cancelled => "cancelled"
  | .rejected => "rejected"
  | .failed => "failed"

def ApprovalStatus.value : ApprovalStatus → String
  | .autoApproved => "auto_approved"
  | .approved => "approved"
  | .rejected => "rejected"
  | .timeout => "timeout"

def DecisionAction.value : DecisionAction → String
  | .buy => "buy"
  | .sell => "sell"
  | .hold => "hold"
  | .approve => "approve"
  | .reject => "reject"
  | .stopLoss => "stop_loss"
  | .takeProfit => "take_profit"

def ExitReason.value : ExitReason → String
  | .stopLoss => "stop_loss"
  | .takeProfit => "take_profit"
  | .trailingStop => "trailing_stop"
  | .timeBased => "time_based"
  | .fundamental => "fundamental"
  | .llmSignal => "llm_signal"
  | .drawdown => "drawdown"
  | .manual => "manual"

/-- The members of `ExitReason`, in the order of the class body. -/
def ExitReason.members : List ExitReason :=
  [.stopLoss, .takeProfit, .trailingStop, .timeBased, .fundamental, .llmSignal, .drawdown, .manual]

/-- `ExitReason(s)`: the member spelled `s`, a validation error otherwise. -/
def ExitReason.ofValue? (s : String) : Option ExitReason :=
  members.find? (fun r => r.value == s)

def WebVerifyResult.value : WebVerifyResult → String
  | .safe => "safe"
  | .warning => "warning"
  | .blocked => "blocked"

/-- `WebVerifyResult(s)`. -/
def WebVerifyResult.ofValue? (s : String) : Option WebVerifyResult :=
  [WebVerifyResult.safe, .warning, .blocked].find? (fun r => r.value == s)

def DecisionStage.value : DecisionStage → String
  | .marketAnalysis => "market_analysis"
  | .stockAnalysis => "stock_analysis"
  | .riskCheck => "risk_check"
  | .tradeDecision => "trade_decision"
  | .approval => "approval"
  | .execution => "execution"
  | .exit => "exit"

def AgentType.value : AgentType → String
  | .marketAnalyst => "market_analyst"
  | .stockAnalyst => "stock_analyst"
  | .riskManager => "risk_manager"
  | .trader => "trader"
  | .sentimentAnalyzer => "sentiment_analyzer"
  | .reportGenerator => "report_generator"
  | .webVerifier => "web_verifier"

def LLMProviderType.value : LLMProviderType → String
  | .openai => "openai"
  | .anthropic => "anthropic"
  | .google => "google"

def MarketType.value : MarketType → String
  | .kospi => "kospi"
  | .kosdaq => "kosdaq"

def ReportType.value : ReportType → String
  | .annual => "annual"
  | .semiAnnual => "semi_annual"
  | .quarterly => "quarterly"

/-- The provider of that name. -/
def LLMProviderType.ofValue? (s : String) : Option LLMProviderType :=
  [LLMProviderType.openai, .google, .anthropic].find? (fun p => p.value == s)

theorem MarketType.value_injective : Function.Injective MarketType.value := by
  intro a b h
  cases a <;> cases b <;> first | rfl | exact absurd h (by decide)

theorem ReportType.value_injective : Function.Injective ReportType.value := by
  intro a b h
  cases a <;> cases b <;> first | rfl | exact absurd h (by decide)

/-- The constructor reads back exactly the spellings of the members. -/
theorem ExitReason.ofValue?_eq_some_iff (s : String) (r : ExitReason) :
    ofValue? s = some r ↔ s = r.value := by
  constructor
  · intro h
    have := List.find?_some h
    exact (beq_iff_eq.1 this).symm
  · rintro rfl
    cases r <;> decide

end TradingAgent
