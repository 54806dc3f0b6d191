/-
The performance calculator: metrics of a period from its closed positions and daily snapshots. Square
root and power are those of the decimal context, which rounds them; everything else is exact, as if no
result had more digits than the context keeps. The calculator with the rounding of the context is
`DecimalContext.calculate`, and where nothing is rounded it is this one (`DecimalContext.exact_calculate`).
-/
import TradingAgent.Backtest.Engine
import TradingAgent.Lib.Drawdown
import Mathlib.Data.List.Sort
import Mathlib.Data.Int.Sqrt

namespace TradingAgent

/-- The inexact operations of the decimal context; a power may be undefined. -/
structure DecimalMath where
  sqrt : Decimal → Decimal
  pow : Decimal → Decimal → Except Exn Decimal

namespace PerformanceCalculator

variable (math : DecimalMath)

/-- The snapshots in the order of their dates. -/
def sortedSnaps (snapshots : List PortfolioSnapshot) : List PortfolioSnapshot :=
  snapshots.insertionSort (fun a b => a.snapshotDate ≤ b.snapshotDate)

/-! ## Daily returns -/

/-- The returns after a value, in percent; a return on zero is skipped. -/
def returnsAfter (prevVal : Decimal) : List PortfolioSnapshot → List Decimal
  | [] => []
  | snap :: snaps =>
    let rest := returnsAfter snap.totalValue snaps
    if prevVal = 0 then rest else (snap.totalValue - prevVal) / prevVal * 100 :: rest

def dailyReturnsFromSnapshots (snapshots : List PortfolioSnapshot) : List Decimal :=
  match sortedSnaps snapshots with
  | [] => []
  | first :: rest => returnsAfter first.totalValue rest

/-! ## Sharpe and Sortino ratios -/

/-- The yearly risk-free rate as a daily one. -/
def rfDailyPct (riskFreeRateAnnualPct : Decimal) (tradingDays : ℕ) : Except Exn Decimal := do
  let p ← math.pow (1 + riskFreeRateAnnualPct / 100) (1 / (tradingDays : Decimal))
  pure ((p - 1) * 100)

def calculateSharpeRatio (dailyReturns : List Decimal) (riskFreeRateAnnualPct : Decimal)
    (tradingDays : ℕ := 252) : Except Exn (Option Decimal) := do
  let n := dailyReturns.length
  if n < 2 then pure none
  else
    let rfDaily ← rfDailyPct math riskFreeRateAnnualPct tradingDays
    let meanRet := dailyReturns.sum / (n : Decimal)
    let variance := (dailyReturns.map (fun r => (r - meanRet) ^ 2)).sum / (n : Decimal)
    let stdDev := math.sqrt variance
    if stdDev = 0 then pure none
    else pure (some (quantize4 ((meanRet - rfDaily) / stdDev * math.sqrt tradingDays)))

def calculateSortinoRatio (dailyReturns : List Decimal) (riskFreeRateAnnualPct : Decimal)
    (tradingDays : ℕ := 252) : Except Exn (Option Decimal) := do
  let n := dailyReturns.length
  if n < 2 then pure none
  else
    let rfDaily ← rfDailyPct math riskFreeRateAnnualPct tradingDays
    let downside := dailyReturns.filter (fun r => r < rfDaily)
    if downside = [] then pure none
    else
      let downsideVariance := (downside.map (fun r => (r - rfDaily) ^ 2)).sum / (downside.length : Decimal)
      let downsideStd := math.sqrt downsideVariance
      if downsideStd = 0 then pure none
      else
        let meanRet := dailyReturns.sum / (n : Decimal)
        pure (some (quantize4 ((meanRet - rfDaily) / downsideStd * math.sqrt tradingDays)))

/-! ## Maximum drawdown -/

/-- One snapshot of the drawdown loop: the peak so far and the largest drawdown. -/
def drawdownStep (acc : Decimal × Decimal) (snap : PortfolioSnapshot) : Decimal × Decimal :=
  let peak := if snap.totalValue > acc.1 then snap.totalValue else acc.1
  let maxDd :=
    if peak > 0 then
      let dd := (peak - snap.totalValue) / peak * 100
      if dd > acc.2 then dd else acc.2
    else acc.2
  (peak, maxDd)

def calculateMaxDrawdown (snapshots : List PortfolioSnapshot) : Decimal :=
  match sortedSnaps snapshots with
  | [] => 0
  | first :: rest => quantize2 ((first :: rest).foldl drawdownStep (first.totalValue, 0)).2

/-! ## Wins and losses -/

/-- Win rate in percent with the numbers of wins and losses. -/
def calculateWinRate (closedPositions : List PositionRecord) : Decimal × ℕ × ℕ :=
  let wins := closedPositions.countP (fun p => p.realizedPnl.any (fun x => x > 0))
  let losses := closedPositions.countP (fun p => p.realizedPnl.any (fun x => x ≤ 0))
  if wins + losses = 0 then (0, 0, 0)
  else (quantize2 ((wins : Decimal) / (wins + losses : ℕ) * 100), wins, losses)

/-- Total profit over total loss; none without a loss. -/
def calculateProfitFactor (closedPositions : List PositionRecord) : Option Decimal :=
  let pnls := closedPositions.filterMap (·.realizedPnl)
  let totalProfit := (pnls.filter (fun x => x > 0)).sum
  let totalLoss := ((pnls.filter (fun x => x < 0)).map (fun x => |x|)).sum
  if totalLoss = 0 then none
  else if totalProfit = 0 then some 0
  else some (quantize2 (totalProfit / totalLoss))

/-- The rounded mean of percentages; zero without any. -/
def averagePct (pcts : List Decimal) : Decimal :=
  if pcts = [] then 0 else quantize2 (pcts.sum / pcts.length)

/-- Price change of a closed position in percent with its realized result. -/
def pnlPct (p : PositionRecord) : Option (Decimal × Decimal) :=
  match p.exitPrice, p.realizedPnl with
  | some exitPrice, some pnl =>
    if p.entryPrice = 0 then none else some ((exitPrice - p.entryPrice) / p.entryPrice * 100, pnl)
  | _, _ => none

/-- Mean winning and mean losing percentage. -/
def calculateAvgWinLoss (closedPositions : List PositionRecord) : Decimal × Decimal :=
  let pcts := closedPositions.filterMap pnlPct
  (averagePct ((pcts.filter (fun e => e.2 > 0)).map (fun e => e.1)),
    averagePct ((pcts.filter (fun e => ¬ e.2 > 0)).map (fun e => |e.1|)))

/-- Results of one strategy. -/
structure StrategyStats where
  tradeCount : ℕ
  winRatePct : Decimal
  avgPnlPct : Decimal
  totalPnl : Decimal

/-- The results of each strategy that has closed positions. -/
def breakdownByStrategy (closedPositions : List PositionRecord) : Dict StrategyType StrategyStats :=
  let groups : Dict StrategyType (List PositionRecord) :=
    closedPositions.foldl (fun d p => d.set p.strategyType ((d.get? p.strategyType).getD [] ++ [p])) Dict.empty
  groups.mapValues (fun _ positions =>
    { tradeCount := positions.length
      winRatePct := (calculateWinRate positions).1
      avgPnlPct := averagePct (positions.filterMap (fun p =>
        if p.entryPrice ≠ 0 then
          p.exitPrice.map (fun exitPrice => (exitPrice - p.entryPrice) / p.entryPrice * 100)
        else none))
      totalPnl := (positions.filterMap (·.realizedPnl)).sum })

/-! ## All metrics -/

/-- The change from the first to the last snapshot in percent. -/
def totalReturn (sorted : List PortfolioSnapshot) : Decimal :=
  match sorted.head?, sorted.getLast? with
  | some first, some last =>
    if 2 ≤ sorted.length ∧ first.totalValue ≠ 0 then
      quantize2 ((last.totalValue - first.totalValue) / first.totalValue * 100)
    else 0
  | _, _ => 0

/-- The return scaled to a year. -/
def annualizedReturn (sorted : List PortfolioSnapshot) (periodStart periodEnd : ℤ)
    (total : Decimal) : Except Exn (Option Decimal) := do
  let days := periodEnd - periodStart
  if days > 0 ∧ 2 ≤ sorted.length ∧ total ≠ 0 then
    let p ← math.pow (1 + total / 100) (365 / (days : Decimal))
    pure (some (quantize2 ((p - 1) * 100)))
  else pure none

def calculate (closedPositions : List PositionRecord) (snapshots : List PortfolioSnapshot)
    (periodStart periodEnd : ℤ) (riskFreeRatePct : Decimal) : Except Exn PerformanceMetrics := do
  let dailyReturns := dailyReturnsFromSnapshots snapshots
  let sharpe ← calculateSharpeRatio math dailyReturns riskFreeRatePct
  let sortino ← calculateSortinoRatio math dailyReturns riskFreeRatePct
  let mdd := calculateMaxDrawdown snapshots
  let winRate := calculateWinRate closedPositions
  let profitFactor := calculateProfitFactor closedPositions
  let avgWinLoss := calculateAvgWinLoss closedPositions
  let sorted := sortedSnaps snapshots
  let total := totalReturn sorted
  let annualized ← annualizedReturn math sorted periodStart periodEnd total
  pure {
    periodStart, periodEnd, totalReturnPct := total, annualizedReturnPct := annualized
    sharpeRatio := sharpe, sortinoRatio := sortino, maxDrawdownPct := mdd
    winRatePct := winRate.1, avgWinPct := avgWinLoss.1, avgLossPct := avgWinLoss.2
    profitFactor, totalTrades := winRate.2.1 + winRate.2.2
    winningTrades := winRate.2.1, losingTrades := winRate.2.2 }

end PerformanceCalculator

/-- Square roots to 28 decimals, and powers of one and with whole exponents. -/
def plainMath : DecimalMath where
  sqrt x := Int.sqrt ⌊x * 10 ^ 56⌋ / 10 ^ 28
  pow b e := if b = 1 then .ok 1 else if e.den = 1 then .ok (b ^ e.num) else .error .conversionError

/-- The snapshot of a day without positions. -/
def cashSnapshot (day : ℤ) (value : Decimal) : PortfolioSnapshot where
  id := day.toNat
  snapshotDate := day
  totalValue := value
  cash := value
  invested := 0
  unrealizedPnl := 0
  realizedPnlDaily := 0
  peakValue := value
  drawdownPct := 0
  positionsCount := 0
  tradeCountDaily := 0

/-- A bench with the performance calculator. -/
def Bench.withMetrics (B : Bench) (math : DecimalMath) : Bench :=
  { B with calculate := PerformanceCalculator.calculate math }

namespace BacktestEngine

/-- A rise on the second day and a fall on the third. -/
def stopDays : HistoricalDataLoader where
  rows := [
    { symbol := "A", date := 1, openPrice := 1000, high := 1000, low := 1000, close := 1000, volume := 10 },
    { symbol := "A", date := 2, openPrice := 1000, high := 1010, low := 1000, close := 1010, volume := 10 },
    { symbol := "A", date := 3, openPrice := 1010, high := 1010, low := 900, close := 900, volume := 10 }]
  sorted := by decide
  unique := by decide

/-- A bench on these days with a BUY decided on the first, and metrics at no risk-free rate. -/
def stopBench : Bench :=
  { replayBench stopDays [buyDecision 1 "A" 1] {} with riskFreeRatePct := 0 }.withMetrics plainMath

/-- A year that buys on its second day and stops out on its third and last. -/
def stopConfig : BacktestConfig := replayConfig 1 366 ["A"]

end BacktestEngine

namespace PerformanceCalculator

/-! ## Specifications -/

theorem quantize2_mono : Monotone quantize2 := by
  intro x y h
  unfold quantize2
  have h1 : Rounding.halfUp (x * 100) ≤ Rounding.halfUp (y * 100) := Rounding.halfUp_mono (by linarith)
  have h2 : (Rounding.halfUp (x * 100) : ℚ) ≤ Rounding.halfUp (y * 100) := by exact_mod_cast h1
  linarith

theorem quantize2_zero : quantize2 0 = 0 := by
  unfold quantize2
  rw [zero_mul, ← Int.cast_zero, Rounding.halfUp_intCast, Int.cast_zero, zero_div]

/-- The drawdown loop computes the running peak and the largest drop. -/
theorem foldl_drawdownStep (snaps : List PortfolioSnapshot) (peak maxDd : Decimal) (h : 0 ≤ maxDd) :
    snaps.foldl drawdownStep (peak, maxDd) =
      (Drawdown.peak peak (snaps.map (·.totalValue)),
        (Drawdown.drops peak (snaps.map (·.totalValue))).foldl max maxDd) := by
  induction snaps generalizing peak maxDd with
  | nil => rfl
  | cons snap snaps ih =>
    have hstep : drawdownStep (peak, maxDd) snap = (max peak snap.totalValue,
        max maxDd (Drawdown.drop (max peak snap.totalValue) snap.totalValue)) := by
      unfold drawdownStep Drawdown.drop
      dsimp only
      rw [Drawdown.ite_gt_eq_max, Drawdown.ite_gt_eq_max]
      split
      · rfl
      · rw [max_eq_left h]
    rw [List.foldl_cons, hstep, ih _ _ (h.trans (le_max_left _ _))]
    rfl

theorem calculateMaxDrawdown_eq {snapshots : List PortfolioSnapshot} {first : PortfolioSnapshot}
    {rest : List PortfolioSnapshot} (h : sortedSnaps snapshots = first :: rest) :
    calculateMaxDrawdown snapshots =
      quantize2 (Drawdown.largest first.totalValue ((first :: rest).map (·.totalValue))) := by
  unfold calculateMaxDrawdown
  rw [h]
  dsimp only
  rw [foldl_drawdownStep _ _ _ le_rfl]
  rfl

/-- The return and the drawdown among the metrics. -/
theorem calculate_eq_ok {math : DecimalMath} {closed : List PositionRecord}
    {snapshots : List PortfolioSnapshot} {periodStart periodEnd : ℤ} {riskFree : Decimal}
    {m : PerformanceMetrics} (h : calculate math closed snapshots periodStart periodEnd riskFree = .ok m) :
    m.totalReturnPct = totalReturn (sortedSnaps snapshots) ∧
      m.maxDrawdownPct = calculateMaxDrawdown snapshots := by
  unfold calculate at h
  obtain ⟨sharpe, _, h⟩ := Wp.bind_eq_ok.1 h
  obtain ⟨sortino, _, h⟩ := Wp.bind_eq_ok.1 h
  obtain ⟨annualized, _, h⟩ := Wp.bind_eq_ok.1 h
  cases h
  exact ⟨rfl, rfl⟩

/-- Metrics name the period they were computed for. -/
theorem calculate_period {math : DecimalMath} {closed : List PositionRecord}
    {snapshots : List PortfolioSnapshot} {periodStart periodEnd : ℤ} {riskFree : Decimal}
    {m : PerformanceMetrics} (h : calculate math closed snapshots periodStart periodEnd riskFree = .ok m) :
    m.periodStart = periodStart ∧ m.periodEnd = periodEnd := by
  unfold calculate at h
  obtain ⟨sharpe, _, h⟩ := Wp.bind_eq_ok.1 h
  obtain ⟨sortino, _, h⟩ := Wp.bind_eq_ok.1 h
  obtain ⟨annualized, _, h⟩ := Wp.bind_eq_ok.1 h
  cases h
  exact ⟨rfl, rfl⟩

/-- The return from a first to a last snapshot, with one snapshot as with many. -/
theorem totalReturn_eq {sorted : List PortfolioSnapshot} {first last : PortfolioSnapshot}
    (hfirst : sorted.head? = some first) (hlast : sorted.getLast? = some last)
    (hne : first.totalValue ≠ 0) :
    totalReturn sorted = quantize2 ((last.totalValue - first.totalValue) / first.totalValue * 100) := by
  unfold totalReturn
  rw [hfirst, hlast]
  dsimp only
  by_cases hlen : 2 ≤ sorted.length
  · rw [if_pos ⟨hlen, hne⟩]
  · rw [if_neg fun h => hlen h.1]
    have hsame : last = first := by
      cases sorted with
      | nil => cases hfirst
      | cons a rest =>
        cases rest with
        | nil => exact (Option.some.inj hlast).symm.trans (Option.some.inj hfirst)
        | cons b rest => exact absurd (by simp) hlen
    rw [hsame, sub_self, zero_div, zero_mul, quantize2_zero]

theorem mem_sortedSnaps {snapshots : List PortfolioSnapshot} {snap : PortfolioSnapshot} :
    snap ∈ sortedSnaps snapshots ↔ snap ∈ snapshots :=
  List.mem_insertionSort _

theorem pairwise_sortedSnaps (snapshots : List PortfolioSnapshot) :
    (sortedSnaps snapshots).Pairwise (fun a b => a.snapshotDate ≤ b.snapshotDate) :=
  List.pairwise_insertionSort _ _

/-- Snapshots with increasing dates are in order. -/
theorem sortedSnaps_eq {snapshots : List PortfolioSnapshot}
    (h : (snapshots.map (·.snapshotDate)).Pairwise (· < ·)) : sortedSnaps snapshots = snapshots := by
  unfold sortedSnaps
  refine List.Pairwise.insertionSort_eq ?_
  rw [List.pairwise_map] at h
  exact h.imp fun h => le_of_lt h

end PerformanceCalculator

end TradingAgent
