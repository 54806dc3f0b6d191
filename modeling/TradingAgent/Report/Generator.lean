/-
The weekly and the monthly report: what is fetched for the period goes to the performance calculator. With
an account given only its rows are fetched, without one the rows of all accounts.
-/
import TradingAgent.Report.Metrics
import TradingAgent.Lib.Calendar

namespace TradingAgent

/-- The tables that reports read, in the order in which the database scans them. -/
structure ReportDataFetcher where
  positions : List PositionRecord := []
  snapshots : List PortfolioSnapshot := []

namespace ReportDataFetcher

/-- The positions closed in a period, by exit date. -/
def getClosedPositions (db : ReportDataFetcher) (startDate endDate : ℤ) (accountId : Option String) :
    List PositionRecord :=
  (db.positions.filter (fun p =>
    p.status = "closed" ∧ p.exitDate.any (fun d => startDate ≤ d ∧ d ≤ endDate) ∧
      accountId.all (fun a => p.accountId = a))).insertionSort
    (fun a b => a.exitDate.getD 0 ≤ b.exitDate.getD 0)

/-- The snapshots of a period, by date. Rows of one date come in the order of the scan. -/
def getPortfolioSnapshots (db : ReportDataFetcher) (startDate endDate : ℤ) (accountId : Option String) :
    List PortfolioSnapshot :=
  (db.snapshots.filter (fun s =>
    startDate ≤ s.snapshotDate ∧ s.snapshotDate ≤ endDate ∧ accountId.all (fun a => s.accountId = a))).insertionSort
    (fun a b => a.snapshotDate ≤ b.snapshotDate)

end ReportDataFetcher

/-- A trade as the weekly report shows it. -/
structure TradeDict where
  symbol : String
  strategy : StrategyType
  pnl : Decimal
  pnlPct : Decimal
  entryDate : ℤ
  exitDate : Option ℤ

structure WeeklyReportData where
  weekStart : ℤ
  weekEnd : ℤ
  performance : PerformanceMetrics
  bestTrade : Option TradeDict := none
  worstTrade : Option TradeDict := none
  strategyComparison : Dict StrategyType PerformanceCalculator.StrategyStats := Dict.empty

namespace ReportGenerator

open ReportDataFetcher PerformanceCalculator

def positionToTradeDict (position : PositionRecord) : TradeDict :=
  let entryPrice := position.entryPrice
  let exitPrice := position.exitPrice.getD 0
  { symbol := position.symbol
    strategy := position.strategyType
    pnl := position.realizedPnl.getD 0
    pnlPct := if entryPrice > 0 then quantize2 ((exitPrice - entryPrice) / entryPrice * 100) else 0
    entryDate := position.entryDate
    exitDate := position.exitDate }

/-- The first element whose key no other one exceeds in the order `less`. -/
def firstBest {α : Type} (less : α → α → Bool) : List α → Option α
  | [] => none
  | a :: l => some (l.foldl (fun best b => if less best b then b else best) a)

def pnlOf (p : PositionRecord) : Decimal := p.realizedPnl.getD 0

/-- The weekly report, by default of the week that ends today. -/
def generateWeeklyReport (math : DecimalMath) (db : ReportDataFetcher) (today : ℤ) (riskFreeRatePct : Decimal)
    (weekEnd : Option ℤ) (accountId : Option String) : Except Exn WeeklyReportData := do
  let weekEnd := weekEnd.getD today
  let weekStart := weekEnd - 6
  let closedPositions := db.getClosedPositions weekStart weekEnd accountId
  let snapshots := db.getPortfolioSnapshots weekStart weekEnd accountId
  let performance ← calculate math closedPositions snapshots weekStart weekEnd riskFreeRatePct
  return {
    weekStart, weekEnd, performance
    bestTrade := (firstBest (fun a b => pnlOf a < pnlOf b) closedPositions).map positionToTradeDict
    worstTrade := (firstBest (fun a b => pnlOf b < pnlOf a) closedPositions).map positionToTradeDict
    strategyComparison := breakdownByStrategy closedPositions }

/-- The first and the last day of a month; a date out of the calendar's range is an error. -/
def monthPeriod (year : ℤ) (month : ℕ) : Except Exn (ℤ × ℤ) :=
  if 1 ≤ year ∧ year ≤ 9999 then
    if 1 ≤ month ∧ month ≤ 12 then
      .ok (Calendar.ofDate year month 1, Calendar.ofDate year month (Calendar.daysInMonth year month).toNat)
    else .error (.valueError "month must be in 1..12")
  else .error (.valueError ("year " ++ toString year ++ " is out of range"))

/-- The monthly report, by default of the current month: the metrics of the month and the report of the day,
which `daily` generates. -/
def generateMonthlyReport {α : Type} (math : DecimalMath) (db : ReportDataFetcher)
    (daily : Option String → Except Exn α) (thisMonth : ℤ × ℕ) (riskFreeRatePct : Decimal)
    (year : Option ℤ) (month : Option ℕ) (accountId : Option String) :
    Except Exn (PerformanceMetrics × α) := do
  let (periodStart, periodEnd) ← monthPeriod (year.getD thisMonth.1) (month.getD thisMonth.2)
  let closedPositions := db.getClosedPositions periodStart periodEnd accountId
  let snapshots := db.getPortfolioSnapshots periodStart periodEnd accountId
  let metrics ← calculate math closedPositions snapshots periodStart periodEnd riskFreeRatePct
  let dailyData ← daily accountId
  return (metrics, dailyData)

end ReportGenerator

end TradingAgent
