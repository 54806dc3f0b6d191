/-
The strategy API. A strategy run turns the signals of the strategy straight into positions, without an
order; what the strategy finds in its analysis comes from outside.
-/
import TradingAgent.Execution.Executor

namespace TradingAgent

open Execution (M await)

structure StrategyRunRequest where
  strategyType : StrategyType
  symbols : List String
  accountId : String := "default"
  investmentPrompt : String := ""

structure StrategyRunResponse where
  strategyType : StrategyType
  symbolsAnalyzed : List String
  signals : List Signal
  positionsCreated : ℕ

namespace StrategyRoute

variable (env : Env)

/-- The trailing stop of the strategies that have one, in percent. -/
def trailingPct : StrategyType → Option Decimal
  | .position => none
  | .swing => some 2

/-- The days after which a position of the strategy is sold. -/
def maxDays : StrategyType → Option ℤ
  | .position => some 60
  | .swing => some 10

/-- The price per share of a signal; without shares its stop, if it has one. -/
def entryPrice (signal : Signal) : Option Decimal :=
  if signal.quantity > 0 then some (signal.positionValueKrw / signal.quantity) else signal.stopLossPrice

/-- Record a position for every signal, from the `created`-th on. The account of the request is not
handed on, so the positions go to the default account. -/
def recordSignals (strategyType : StrategyType) : ℕ → List Signal → M ℕ
  | created, [] => pure created
  | created, signal :: signals => do
    let _ ← PositionManager.create env (.recordPosition created) signal.symbol strategyType signal.quantity
      (entryPrice signal) (priceOr signal.stopLossPrice ((entryPrice signal).getD 0)) signal.targetPrice "default"
      (trailingPct strategyType) (maxDays strategyType)
    recordSignals strategyType (created + 1) signals

/-- `POST /api/strategy/run`: any exception is a server error. -/
def runStrategy (generateSignals : StrategyRunRequest → List Signal) (req : StrategyRunRequest) :
    M StrategyRunResponse :=
  tryCatch (do
    let signals ← await env .generateSignals (pure (generateSignals req))
    let positionsCreated ← recordSignals env req.strategyType 0 signals
    pure { strategyType := req.strategyType, symbolsAnalyzed := req.symbols, signals, positionsCreated })
  (fun _ => throw (.httpError 500 "Internal server error"))

end StrategyRoute

end TradingAgent
