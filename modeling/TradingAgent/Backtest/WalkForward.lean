/-
The walk-forward analyzer. Every window is backtested in and out of sample on one engine; the out-of-sample
results are averaged, and the share of windows with a positive return decides whether they are robust.
-/
import TradingAgent.Backtest.Windows
import TradingAgent.Report.Metrics

namespace TradingAgent

structure WalkForwardWindow where
  windowIndex : ℕ
  isStart : PyDate
  isEnd : PyDate
  oosStart : PyDate
  oosEnd : PyDate
  isMetrics : PerformanceMetrics
  oosMetrics : PerformanceMetrics
  oosTradeCount : ℕ

structure WalkForwardResult where
  config : BacktestConfig
  windowMonths : ℕ
  oosMonths : ℕ
  windows : List WalkForwardWindow
  aggregatedOosMetrics : PerformanceMetrics
  consistencyRatio : Decimal
  avgOosReturnPct : Decimal
  isRobust : Bool

namespace WalkForwardAnalyzer

open BacktestEngine

/-! ## Aggregation -/

/-- The metrics of a run without metrics. -/
def emptyMetrics (periodStart periodEnd : ℤ) : PerformanceMetrics where
  periodStart := periodStart
  periodEnd := periodEnd
  totalReturnPct := 0
  annualizedReturnPct := none
  sharpeRatio := none
  sortinoRatio := none
  maxDrawdownPct := 0
  winRatePct := 0
  avgWinPct := 0
  avgLossPct := 0
  profitFactor := none
  totalTrades := 0
  winningTrades := 0
  losingTrades := 0

/-- The rounded mean of a metric over the windows. -/
def meanOf (metric : PerformanceMetrics → Decimal) (windows : List WalkForwardWindow) : Decimal :=
  quantize2 ((windows.map (fun w => metric w.oosMetrics)).sum / windows.length)

/-- The rounded mean of a metric over the windows that have it. -/
def meanOfKnown (metric : PerformanceMetrics → Option Decimal) (windows : List WalkForwardWindow) : Option Decimal :=
  let values := windows.filterMap (fun w => metric w.oosMetrics)
  if values = [] then none else some (quantize2 (values.sum / values.length))

/-- The sum of a count over the windows. -/
def totalOf (count : PerformanceMetrics → ℕ) (windows : List WalkForwardWindow) : ℕ :=
  (windows.map (fun w => count w.oosMetrics)).sum

def aggregateOosMetrics (windows : List WalkForwardWindow) (fallbackStart fallbackEnd : ℤ) : PerformanceMetrics :=
  match windows.head?, windows.getLast? with
  | some first, some last =>
    let totalTrades := totalOf (·.totalTrades) windows
    let winning := totalOf (·.winningTrades) windows
    { periodStart := first.oosStart.toDay
      periodEnd := last.oosEnd.toDay
      totalReturnPct := meanOf (·.totalReturnPct) windows
      annualizedReturnPct := none
      sharpeRatio := meanOfKnown (·.sharpeRatio) windows
      sortinoRatio := meanOfKnown (·.sortinoRatio) windows
      maxDrawdownPct := meanOf (·.maxDrawdownPct) windows
      winRatePct := if totalTrades > 0 then quantize2 ((winning : Decimal) / totalTrades * 100) else 0
      avgWinPct := meanOf (·.avgWinPct) windows
      avgLossPct := meanOf (·.avgLossPct) windows
      profitFactor := meanOfKnown (·.profitFactor) windows
      totalTrades := totalTrades
      winningTrades := winning
      losingTrades := totalOf (·.losingTrades) windows }
  | _, _ => emptyMetrics fallbackStart fallbackEnd

/-- The share of windows with a positive return. -/
def consistencyRatio (windows : List WalkForwardWindow) : Decimal :=
  if windows.length = 0 then 0
  else quantize2 ((windows.countP (fun w => w.oosMetrics.totalReturnPct > 0) : ℕ) / (windows.length : Decimal))

def avgOosReturn (windows : List WalkForwardWindow) : Decimal :=
  if windows.length = 0 then 0 else meanOf (·.totalReturnPct) windows

def robustnessThreshold : Decimal := 6 / 10

def isRobust (windows : List WalkForwardWindow) : Bool := consistencyRatio windows ≥ robustnessThreshold

/-! ## The runs of the windows -/

variable (B : Bench) (config : BacktestConfig)

/-- The configuration of a period. -/
def periodConfig (startDate endDate : PyDate) : BacktestConfig :=
  { config with startDate := startDate.toDay, endDate := endDate.toDay }

/-- The backtests of a window. -/
def runWindow (index : ℕ) (dates : WindowDates) : M WalkForwardWindow := do
  let isResult ← BacktestEngine.run B (periodConfig config dates.isStart dates.isEnd)
  let oosResult ← BacktestEngine.run B (periodConfig config dates.oosStart dates.oosEnd)
  pure {
    windowIndex := index, isStart := dates.isStart, isEnd := dates.isEnd
    oosStart := dates.oosStart, oosEnd := dates.oosEnd
    isMetrics := isResult.metrics.getD (emptyMetrics dates.isStart.toDay dates.isEnd.toDay)
    oosMetrics := oosResult.metrics.getD (emptyMetrics dates.oosStart.toDay dates.oosEnd.toDay)
    oosTradeCount := oosResult.totalTrades }

/-- The backtests of all windows, one after the other on one engine and one broker. -/
def runWindows : ℕ → List WindowDates → M (List WalkForwardWindow)
  | _, [] => pure []
  | index, dates :: rest => do
    let window ← runWindow B config index dates
    let windows ← runWindows (index + 1) rest
    pure (window :: windows)

/-- The result of an analysis of given windows. -/
def analyse (windowMonths oosMonths : ℕ) (dates : List WindowDates) : M WalkForwardResult := do
  let windows ← runWindows B config 0 dates
  pure {
    config, windowMonths, oosMonths, windows
    aggregatedOosMetrics := aggregateOosMetrics windows config.startDate config.endDate
    consistencyRatio := consistencyRatio windows
    avgOosReturnPct := avgOosReturn windows
    isRobust := isRobust windows }

/-- A walk-forward run from a state: the windows are those of the dates of the configuration. -/
structure Runs (shift : PyDate → ℕ → Except Exn PyDate) (windowMonths oosMonths : ℕ) (dates : List WindowDates)
    (w : Backtest) (r : WalkForwardResult) (w' : Backtest) : Prop where
  generated : ∃ startDate endDate, startDate.toDay = config.startDate ∧ endDate.toDay = config.endDate ∧
    GenerateWindows shift windowMonths oosMonths startDate endDate (.ok dates)
  analysed : analyse B config windowMonths oosMonths dates w = .ok r w'

end WalkForwardAnalyzer

end TradingAgent
