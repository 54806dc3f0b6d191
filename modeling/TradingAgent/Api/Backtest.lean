/-
The backtest API. A request is stored as a run and executed in the background: the prices are loaded, broker and
engine are built, and the result and its trades are stored under the run. A failure marks the run as failed.
-/
import TradingAgent.Backtest.Engine

namespace TradingAgent

structure RunBacktestRequest where
  strategyType : StrategyType
  startDate : ℤ
  endDate : ℤ
  initialCapital : Decimal := 10000000
  symbols : List String := []
  slippageBps : ℤ := 10
  mode : BacktestMode := .technical
  parameters : Dict String Param := Dict.empty
  llmModelFilter : Option String := none

/-- A row of the runs. -/
structure BacktestRun where
  runId : ℕ
  strategyType : StrategyType
  mode : BacktestMode
  startDate : ℤ
  endDate : ℤ
  initialCapital : Decimal
  slippageBps : ℤ := 10
  commissionBuyPct : Decimal := 15 / 1000
  commissionSellPct : Decimal := 195 / 1000
  symbols : Option (List String) := none
  parameters : Option (Dict String Param) := none
  status : BacktestStatus := .pending
  resultMetrics : Option PerformanceMetrics := none
  totalTrades : ℕ := 0
  errorMessage : Option Exn := none

/-- A row of the trades of the runs. -/
structure BacktestTrade where
  runId : ℕ
  record : BacktestTradeRecord
  deriving DecidableEq

structure BacktestDb where
  runs : List BacktestRun := []
  trades : List BacktestTrade := []

/-- What the background task finds outside: the daily bars, or why they cannot be read, the settings, the decision
log, the indicators, the metrics, and whether the last commit fails. -/
structure BacktestServices where
  bars : List DailyOHLCV
  unique : (bars.map (fun r => (r.symbol, r.date))).Nodup
  loadError : Option Exn := none
  settings : Settings
  decisions : List DecisionLog := []
  indicators : Indicators
  calculate : List PositionRecord → List PortfolioSnapshot → ℤ → ℤ → Decimal → Except Exn PerformanceMetrics
  commitError : Option Exn := none

namespace BacktestRoute

abbrev M := EStateM Exn BacktestDb

/-- The value unless it is empty. -/
def orNone {α : Type} (xs : List α) : Option (List α) := if xs = [] then none else some xs

/-- Change the rows of a run. -/
def updateRun (runId : ℕ) (f : BacktestRun → BacktestRun) : M PUnit :=
  modify (fun db => { db with runs := db.runs.map (fun row => if row.runId = runId then f row else row) })

/-! ## The request -/

/-- The configuration that a request asks for. -/
def configOf (req : RunBacktestRequest) : BacktestConfig where
  strategyType := req.strategyType
  startDate := req.startDate
  endDate := req.endDate
  initialCapital := req.initialCapital
  symbols := req.symbols
  slippageBps := req.slippageBps
  mode := req.mode
  parameters := req.parameters
  llmModelFilter := req.llmModelFilter

/-- `POST /api/backtest/run`: store the run and hand its configuration to the background task. -/
def runBacktest (runId : ℕ) (req : RunBacktestRequest) : M BacktestConfig := do
  if req.startDate > req.endDate then throw (.httpError 422 "start_date must be <= end_date")
  else
    modify (fun db => { db with runs := db.runs ++ [{
      runId, strategyType := req.strategyType, mode := req.mode, startDate := req.startDate, endDate := req.endDate
      initialCapital := req.initialCapital, slippageBps := req.slippageBps, symbols := orNone req.symbols
      parameters := if req.parameters.items.isEmpty then none else some req.parameters }] })
    pure (configOf req)

/-! ## The background task -/

variable (services : BacktestServices)

/-- The loaded prices of a configuration. -/
def loaderOf (config : BacktestConfig) : HistoricalDataLoader :=
  HistoricalDataLoader.load services.bars services.unique config.symbols config.startDate config.endDate

/-- Broker and engine of a configuration. The broker is built with its default costs. -/
def benchOf (config : BacktestConfig) : Bench where
  loader := loaderOf services config
  brokerConfig := { initialCapital := config.initialCapital }
  settings := services.settings
  sessionFactory := some services.decisions
  indicators := services.indicators
  calculate := services.calculate

/-- The run of a new engine on a new broker. -/
def engineRun (config : BacktestConfig) : EStateM.Result Exn Backtest BacktestResult :=
  BacktestEngine.run (benchOf services config) config ⟨{}, SimulatedBroker.new (benchOf services config).brokerConfig⟩

/-- The body of the background task, which may raise. -/
def executeBody (runId : ℕ) (config : BacktestConfig) : M PUnit := do
  updateRun runId (fun row => { row with status := .running })
  match services.loadError with
  | some e => throw e
  | none =>
    match engineRun services config with
    | .error e _ => throw e
    | .ok result _ =>
      match services.commitError with
      | some e => throw e
      | none =>
        updateRun runId (fun row => { row with
          status := result.status, resultMetrics := result.metrics, totalTrades := result.totalTrades
          errorMessage := result.errorMessage })
        modify (fun db => { db with trades := db.trades ++ result.trades.map (BacktestTrade.mk runId) })

/-- The background task: an exception marks the run as failed. -/
def executeBacktest (runId : ℕ) (config : BacktestConfig) : M PUnit :=
  tryCatch (executeBody services runId config) (fun e =>
    updateRun runId (fun row => { row with status := .failed, errorMessage := some e }))

/-- A request and its background task. -/
def post (runId : ℕ) (req : RunBacktestRequest) : M PUnit := do
  let config ← runBacktest runId req
  executeBacktest services runId config

end BacktestRoute

end TradingAgent
