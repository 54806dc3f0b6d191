/-
The performance calculator in a decimal context: every result is rounded, a result beyond the largest exponent raises,
a quotient by zero and the square root of a negative number raise, and so does a quantized number whose digits do not
fit. Without rounding and without limits it is the exact calculator.
-/
import TradingAgent.Report.Metrics
import TradingAgent.Lib.ExponentRange
import Mathlib.Algebra.Order.BigOperators.Group.List
import Mathlib.Data.List.ReduceOption
import Mathlib.Tactic.SplitIfs

namespace TradingAgent

/-- How a context rounds its results, which rounded results it has room for, and which coefficients fit into it. -/
structure DecimalContext where
  round : Decimal → Decimal
  within : Decimal → Bool
  fits : ℤ → Bool

namespace DecimalContext

open PerformanceCalculator (sortedSnaps)

/-- A context that neither rounds nor limits. -/
def exact : DecimalContext where
  round x := x
  within _ := true
  fits _ := true

/-- The exponent that no result may have. -/
def top : ℤ := 1000000

/-- The exponent of the last digit of the smallest number. -/
def tiny : ℤ := -1000026

/-- The default context of Python: 28 digits, ties to even, exponents from -999999 to 999999. -/
def standard : DecimalContext where
  round := ExponentRange.round 28 tiny
  within x := Int.log 10 |x| < top
  fits n := |n| < 10 ^ 28

def invalidOperation : Exn := .external "decimal.InvalidOperation"

def overflow : Exn := .external "decimal.Overflow"

variable (ctx : DecimalContext) (math : DecimalMath)

/-! ## Operations -/

/-- The result of an operation. -/
def finish (x : Decimal) : Except Exn Decimal :=
  if ctx.within (ctx.round x) then .ok (ctx.round x) else .error overflow

def add (x y : Decimal) : Except Exn Decimal := ctx.finish (x + y)

def sub (x y : Decimal) : Except Exn Decimal := ctx.finish (x - y)

def mul (x y : Decimal) : Except Exn Decimal := ctx.finish (x * y)

def abs (x : Decimal) : Except Exn Decimal := ctx.finish |x|

def div (x y : Decimal) : Except Exn Decimal :=
  if y = 0 then .error (if x = 0 then invalidOperation else .divisionByZero) else ctx.finish (x / y)

def sqrt (x : Decimal) : Except Exn Decimal :=
  if x < 0 then .error invalidOperation else .ok (math.sqrt x)

def quantize (places : ℕ) (x : Decimal) : Except Exn Decimal :=
  let coefficient := Rounding.halfUp (x * 10 ^ places)
  if ctx.fits coefficient then .ok (coefficient / 10 ^ places) else .error invalidOperation

def sum (xs : List Decimal) : Except Exn Decimal := xs.foldlM ctx.add 0

/-- The change from one value to another in percent. -/
def changePct (fromValue toValue : Decimal) : Except Exn Decimal := do
  let difference ← ctx.sub toValue fromValue
  let change ← ctx.div difference fromValue
  ctx.mul change 100

/-! ## Daily returns -/

/-- The returns after a value, in percent; a return on zero is skipped. -/
def returnsAfter (prevVal : Decimal) : List PortfolioSnapshot → Except Exn (List Decimal)
  | [] => .ok []
  | snap :: snaps =>
    if prevVal = 0 then returnsAfter snap.totalValue snaps
    else do
      let ret ← ctx.changePct prevVal snap.totalValue
      let rest ← returnsAfter snap.totalValue snaps
      pure (ret :: rest)

def dailyReturnsFromSnapshots (snapshots : List PortfolioSnapshot) : Except Exn (List Decimal) :=
  match sortedSnaps snapshots with
  | [] => .ok []
  | first :: rest => ctx.returnsAfter first.totalValue rest

/-! ## Sharpe and Sortino ratios -/

/-- The yearly risk-free rate as a daily one. -/
def rfDailyPct (riskFreeRateAnnualPct : Decimal) (tradingDays : ℕ) : Except Exn Decimal := do
  let hundredth ← ctx.div riskFreeRateAnnualPct 100
  let base ← ctx.add 1 hundredth
  let root ← ctx.div 1 tradingDays
  let growth ← math.pow base root
  let excess ← ctx.sub growth 1
  ctx.mul excess 100

/-- The mean of a list of returns. -/
def mean (returns : List Decimal) : Except Exn Decimal := do
  let total ← ctx.sum returns
  ctx.div total returns.length

/-- The root of the mean square of the distances from a centre. -/
def deviation (center : Decimal) (returns : List Decimal) : Except Exn Decimal := do
  let squares ← returns.mapM (fun r => do
    let distance ← ctx.sub r center
    math.pow distance 2)
  let variance ← ctx.mean squares
  sqrt math variance

/-- The excess of the mean return over the daily risk-free rate in deviations, scaled to a year. -/
def yearlyRatio (meanRet rfDaily stdDev : Decimal) (tradingDays : ℕ) : Except Exn Decimal := do
  let excess ← ctx.sub meanRet rfDaily
  let ratio ← ctx.div excess stdDev
  let year ← sqrt math tradingDays
  let yearly ← ctx.mul ratio year
  ctx.quantize 4 yearly

def calculateSharpeRatio (dailyReturns : List Decimal) (riskFreeRateAnnualPct : Decimal)
    (tradingDays : ℕ := 252) : Except Exn (Option Decimal) := do
  let n := dailyReturns.length
  if n < 2 then pure none
  else
    let rfDaily ← ctx.rfDailyPct math riskFreeRateAnnualPct tradingDays
    let meanRet ← ctx.mean dailyReturns
    let stdDev ← ctx.deviation math meanRet dailyReturns
    if stdDev = 0 then pure none
    else
      let sharpe ← ctx.yearlyRatio math meanRet rfDaily stdDev tradingDays
      pure (some sharpe)

def calculateSortinoRatio (dailyReturns : List Decimal) (riskFreeRateAnnualPct : Decimal)
    (tradingDays : ℕ := 252) : Except Exn (Option Decimal) := do
  let n := dailyReturns.length
  if n < 2 then pure none
  else
    let rfDaily ← ctx.rfDailyPct math riskFreeRateAnnualPct tradingDays
    let downside := dailyReturns.filter (fun r => r < rfDaily)
    if downside = [] then pure none
    else
      let downsideStd ← ctx.deviation math rfDaily downside
      if downsideStd = 0 then pure none
      else
        let meanRet ← ctx.mean dailyReturns
        let sortino ← ctx.yearlyRatio math meanRet rfDaily downsideStd tradingDays
        pure (some sortino)

/-! ## Maximum drawdown -/

/-- One snapshot of the drawdown loop: the peak so far and the largest drawdown. -/
def drawdownStep (acc : Decimal × Decimal) (snap : PortfolioSnapshot) : Except Exn (Decimal × Decimal) :=
  let peak := if snap.totalValue > acc.1 then snap.totalValue else acc.1
  if peak > 0 then do
    let difference ← ctx.sub peak snap.totalValue
    let fall ← ctx.div difference peak
    let dd ← ctx.mul fall 100
    pure (peak, if dd > acc.2 then dd else acc.2)
  else pure (peak, acc.2)

def calculateMaxDrawdown (snapshots : List PortfolioSnapshot) : Except Exn Decimal :=
  match sortedSnaps snapshots with
  | [] => .ok 0
  | first :: rest => do
    let acc ← (first :: rest).foldlM ctx.drawdownStep (first.totalValue, 0)
    ctx.quantize 2 acc.2

/-! ## Wins and losses -/

/-- Win rate in percent with the numbers of wins and losses. -/
def calculateWinRate (closedPositions : List PositionRecord) : Except Exn (Decimal × ℕ × ℕ) :=
  let wins := closedPositions.countP (fun p => p.realizedPnl.any (fun x => x > 0))
  let losses := closedPositions.countP (fun p => p.realizedPnl.any (fun x => x ≤ 0))
  if wins + losses = 0 then .ok (0, 0, 0)
  else do
    let share ← ctx.div wins (wins + losses : ℕ)
    let pct ← ctx.mul share 100
    let rate ← ctx.quantize 2 pct
    pure (rate, wins, losses)

/-- The profits of the closed positions. -/
def profits (closedPositions : List PositionRecord) : List Decimal :=
  (closedPositions.filterMap (·.realizedPnl)).filter (fun x => x > 0)

/-- The losses of the closed positions, as negative numbers. -/
def losses (closedPositions : List PositionRecord) : List Decimal :=
  (closedPositions.filterMap (·.realizedPnl)).filter (fun x => x < 0)

/-- Total profit over total loss; none without a loss. -/
def calculateProfitFactor (closedPositions : List PositionRecord) : Except Exn (Option Decimal) := do
  let totalProfit ← ctx.sum (profits closedPositions)
  let sizes ← (losses closedPositions).mapM ctx.abs
  let totalLoss ← ctx.sum sizes
  if totalLoss = 0 then pure none
  else if totalProfit = 0 then pure (some 0)
  else
    let factor ← ctx.div totalProfit totalLoss
    let rounded ← ctx.quantize 2 factor
    pure (some rounded)

/-- The rounded mean of percentages; zero without any. -/
def averagePct (pcts : List Decimal) : Except Exn Decimal :=
  if pcts = [] then .ok 0
  else do
    let avg ← ctx.mean pcts
    ctx.quantize 2 avg

/-- Price change of a closed position in percent with its realized result. -/
def pnlPct (p : PositionRecord) : Except Exn (Option (Decimal × Decimal)) :=
  match p.exitPrice with
  | some exitPrice =>
    if p.entryPrice = 0 then pure none
    else do
      let pct ← ctx.changePct p.entryPrice exitPrice
      pure (p.realizedPnl.map (fun pnl => (pct, pnl)))
  | none => pure none

/-- The price changes of the positions with a profit. -/
def winPcts (pcts : List (Decimal × Decimal)) : List Decimal :=
  (pcts.filter (fun e => e.2 > 0)).map (fun e => e.1)

/-- The price changes of the other positions. -/
def lossPcts (pcts : List (Decimal × Decimal)) : List Decimal :=
  (pcts.filter (fun e => ¬ e.2 > 0)).map (fun e => e.1)

/-- Mean winning and mean losing percentage. -/
def calculateAvgWinLoss (closedPositions : List PositionRecord) : Except Exn (Decimal × Decimal) := do
  let found ← closedPositions.mapM ctx.pnlPct
  let pcts := found.reduceOption
  let sizes ← (lossPcts pcts).mapM ctx.abs
  let avgWin ← ctx.averagePct (winPcts pcts)
  let avgLoss ← ctx.averagePct sizes
  pure (avgWin, avgLoss)

/-! ## All metrics -/

/-- The change from the first to the last snapshot in percent. -/
def totalReturn (sorted : List PortfolioSnapshot) : Except Exn Decimal :=
  match sorted.head?, sorted.getLast? with
  | some first, some last =>
    if 2 ≤ sorted.length ∧ first.totalValue ≠ 0 then do
      let pct ← ctx.changePct first.totalValue last.totalValue
      ctx.quantize 2 pct
    else .ok 0
  | _, _ => .ok 0

/-- The return scaled to a year. -/
def annualizedReturn (sorted : List PortfolioSnapshot) (periodStart periodEnd : ℤ)
    (total : Decimal) : Except Exn (Option Decimal) := do
  let days := periodEnd - periodStart
  if days > 0 ∧ 2 ≤ sorted.length ∧ total ≠ 0 then
    let hundredth ← ctx.div total 100
    let base ← ctx.add 1 hundredth
    let exponent ← ctx.div 365 days
    let growth ← math.pow base exponent
    let gain ← ctx.sub growth 1
    let pct ← ctx.mul gain 100
    let annual ← ctx.quantize 2 pct
    pure (some annual)
  else pure none

def calculate (closedPositions : List PositionRecord) (snapshots : List PortfolioSnapshot)
    (periodStart periodEnd : ℤ) (riskFreeRatePct : Decimal) : Except Exn PerformanceMetrics := do
  let dailyReturns ← ctx.dailyReturnsFromSnapshots snapshots
  let sharpe ← ctx.calculateSharpeRatio math dailyReturns riskFreeRatePct
  let sortino ← ctx.calculateSortinoRatio math dailyReturns riskFreeRatePct
  let mdd ← ctx.calculateMaxDrawdown snapshots
  let winRate ← ctx.calculateWinRate closedPositions
  let profitFactor ← ctx.calculateProfitFactor closedPositions
  let avgWinLoss ← ctx.calculateAvgWinLoss closedPositions
  let sorted := sortedSnaps snapshots
  let total ← ctx.totalReturn sorted
  let annualized ← ctx.annualizedReturn math sorted periodStart periodEnd total
  pure {
    periodStart, periodEnd, totalReturnPct := total, annualizedReturnPct := annualized
    sharpeRatio := sharpe, sortinoRatio := sortino, maxDrawdownPct := mdd
    winRatePct := winRate.1, avgWinPct := avgWinLoss.1, avgLossPct := avgWinLoss.2
    profitFactor, totalTrades := winRate.2.1 + winRate.2.2
    winningTrades := winRate.2.1, losingTrades := winRate.2.2 }

/-! ## Steps that do not raise -/

variable {ctx math} {x y : Decimal}

theorem div_eq (hy : y ≠ 0) : ctx.div x y = ctx.finish (x / y) := if_neg hy

theorem sqrt_eq_ok (hx : 0 ≤ x) : sqrt math x = .ok (math.sqrt x) := if_neg (not_lt.2 hx)

theorem mapM_eq_ok {α β : Type} {f : α → Except Exn β} {g : α → β} : ∀ {xs : List α}, (∀ x ∈ xs, f x = .ok (g x)) →
    xs.mapM f = .ok (xs.map g)
  | [], _ => rfl
  | x :: xs, h => by
    rw [List.mapM_cons, h x (List.mem_cons_self ..), mapM_eq_ok fun y hy => h y (List.mem_cons_of_mem _ hy)]
    rfl

/-! ## The exact context -/

section

variable (hsquare : ∀ x, math.pow x 2 = .ok (x ^ 2))

theorem exact_div (hy : y ≠ 0) : exact.div x y = .ok (x / y) := div_eq hy

theorem exact_foldlM_add (xs : List Decimal) : ∀ acc, xs.foldlM exact.add acc = .ok (xs.foldl (· + ·) acc) := by
  induction xs with
  | nil => exact fun _ => rfl
  | cons x xs ih => exact fun acc => ih (acc + x)

theorem exact_sum (xs : List Decimal) : exact.sum xs = .ok xs.sum := by
  unfold sum
  rw [exact_foldlM_add, List.sum_eq_foldl]

theorem exact_mean {xs : List Decimal} (hne : xs ≠ []) : exact.mean xs = .ok (xs.sum / xs.length) := by
  have hlength : (xs.length : Decimal) ≠ 0 := Nat.cast_ne_zero.2 fun h => hne (List.length_eq_zero_iff.1 h)
  unfold mean
  rw [exact_sum]
  exact exact_div hlength

theorem exact_changePct (hx : x ≠ 0) : exact.changePct x y = .ok ((y - x) / x * 100) := by
  have hchange : exact.changePct x y = exact.div (y - x) x >>= fun change => exact.mul change 100 := rfl
  rw [hchange, exact_div hx]
  rfl

theorem exact_quantize2 (x : Decimal) : exact.quantize 2 x = .ok (quantize2 x) := by
  have hten : (10 : Decimal) ^ 2 = 100 := by norm_num
  unfold quantize quantize2
  rw [hten]
  rfl

theorem exact_quantize4 (x : Decimal) : exact.quantize 4 x = .ok (quantize4 x) := by
  have hten : (10 : Decimal) ^ 4 = 10000 := by norm_num
  unfold quantize quantize4
  rw [hten]
  rfl

theorem exact_returnsAfter (snaps : List PortfolioSnapshot) : ∀ prevVal,
    exact.returnsAfter prevVal snaps = .ok (PerformanceCalculator.returnsAfter prevVal snaps) := by
  induction snaps with
  | nil => exact fun _ => rfl
  | cons snap snaps ih =>
    intro prevVal
    unfold returnsAfter PerformanceCalculator.returnsAfter
    dsimp only
    split
    · exact ih snap.totalValue
    · rename_i hprev
      rw [exact_changePct hprev, ih snap.totalValue]
      rfl

theorem exact_dailyReturns (snapshots : List PortfolioSnapshot) : exact.dailyReturnsFromSnapshots snapshots =
    .ok (PerformanceCalculator.dailyReturnsFromSnapshots snapshots) := by
  unfold dailyReturnsFromSnapshots PerformanceCalculator.dailyReturnsFromSnapshots
  cases sortedSnaps snapshots with
  | nil => rfl
  | cons first rest => exact exact_returnsAfter rest first.totalValue

theorem exact_rfDailyPct (riskFree : Decimal) {tradingDays : ℕ} (hdays : tradingDays ≠ 0) :
    exact.rfDailyPct math riskFree tradingDays = PerformanceCalculator.rfDailyPct math riskFree tradingDays := by
  have hhundred : (100 : Decimal) ≠ 0 := by norm_num
  unfold rfDailyPct PerformanceCalculator.rfDailyPct
  rw [exact_div hhundred, exact_div (Nat.cast_ne_zero.2 hdays)]
  rfl

include hsquare in
theorem exact_deviation (center : Decimal) {returns : List Decimal} (hne : returns ≠ []) :
    exact.deviation math center returns =
      .ok (math.sqrt ((returns.map (fun r => (r - center) ^ 2)).sum / (returns.length : Decimal))) := by
  have hnonneg : 0 ≤ (returns.map (fun r => (r - center) ^ 2)).sum / (returns.length : Decimal) := by
    refine div_nonneg (List.sum_nonneg fun x hx => ?_) (Nat.cast_nonneg _)
    obtain ⟨r, -, rfl⟩ := List.mem_map.1 hx
    exact sq_nonneg _
  have hsquares : returns.mapM (fun r => do
      let distance ← exact.sub r center
      math.pow distance 2) = .ok (returns.map (fun r => (r - center) ^ 2)) := mapM_eq_ok fun r _ => hsquare _
  have hmean := exact_mean (fun h => hne (List.map_eq_nil_iff.1 h) : returns.map (fun r => (r - center) ^ 2) ≠ [])
  rw [List.length_map] at hmean
  unfold deviation
  rw [hsquares]
  simp only [bind, Except.bind]
  rw [hmean]
  exact sqrt_eq_ok hnonneg

theorem exact_yearlyRatio (meanRet rfDaily : Decimal) {stdDev : Decimal} (hdev : stdDev ≠ 0) (tradingDays : ℕ) :
    exact.yearlyRatio math meanRet rfDaily stdDev tradingDays =
      .ok (quantize4 ((meanRet - rfDaily) / stdDev * math.sqrt tradingDays)) := by
  have hratio : exact.yearlyRatio math meanRet rfDaily stdDev tradingDays =
      (exact.div (meanRet - rfDaily) stdDev >>= fun ratio => sqrt math tradingDays >>= fun year =>
        exact.quantize 4 (ratio * year)) := rfl
  rw [hratio, exact_div hdev, sqrt_eq_ok (Nat.cast_nonneg _), ← exact_quantize4]
  rfl

include hsquare in
theorem exact_calculateSharpeRatio (dailyReturns : List Decimal) (riskFree : Decimal) :
    exact.calculateSharpeRatio math dailyReturns riskFree =
      PerformanceCalculator.calculateSharpeRatio math dailyReturns riskFree := by
  unfold calculateSharpeRatio PerformanceCalculator.calculateSharpeRatio
  rw [exact_rfDailyPct riskFree (by norm_num)]
  dsimp only
  split
  · rfl
  · rename_i hlength
    have hne : dailyReturns ≠ [] := by
      rintro rfl
      exact hlength (by decide)
    cases PerformanceCalculator.rfDailyPct math riskFree 252 with
    | error e => rfl
    | ok rfDaily =>
      simp only [bind, Except.bind]
      rw [exact_mean hne]
      dsimp only
      rw [exact_deviation hsquare _ hne]
      dsimp only
      split_ifs with hdev
      · rfl
      · rw [exact_yearlyRatio _ _ hdev]

include hsquare in
theorem exact_calculateSortinoRatio (dailyReturns : List Decimal) (riskFree : Decimal) :
    exact.calculateSortinoRatio math dailyReturns riskFree =
      PerformanceCalculator.calculateSortinoRatio math dailyReturns riskFree := by
  unfold calculateSortinoRatio PerformanceCalculator.calculateSortinoRatio
  rw [exact_rfDailyPct riskFree (by norm_num)]
  dsimp only
  split
  · rfl
  · rename_i hlength
    have hne : dailyReturns ≠ [] := by
      rintro rfl
      exact hlength (by decide)
    cases PerformanceCalculator.rfDailyPct math riskFree 252 with
    | error e => rfl
    | ok rfDaily =>
      simp only [bind, Except.bind]
      split_ifs with hempty hdev
      · rfl
      · rw [exact_deviation hsquare _ hempty]
        dsimp only
        rw [if_pos hdev]
      · rw [exact_deviation hsquare _ hempty]
        dsimp only
        rw [if_neg hdev, exact_mean hne]
        dsimp only
        rw [exact_yearlyRatio _ _ hdev]

theorem exact_drawdownStep (acc : Decimal × Decimal) (snap : PortfolioSnapshot) :
    exact.drawdownStep acc snap = .ok (PerformanceCalculator.drawdownStep acc snap) := by
  unfold drawdownStep PerformanceCalculator.drawdownStep
  dsimp only
  generalize (if snap.totalValue > acc.1 then snap.totalValue else acc.1) = peak
  by_cases hpeak : peak > 0
  · have hfall : exact.sub peak snap.totalValue = .ok (peak - snap.totalValue) := rfl
    rw [if_pos hpeak, if_pos hpeak, hfall]
    simp only [bind, Except.bind]
    rw [exact_div (ne_of_gt hpeak)]
    rfl
  · rw [if_neg hpeak, if_neg hpeak]
    rfl

theorem exact_foldlM_drawdownStep (snaps : List PortfolioSnapshot) : ∀ acc,
    snaps.foldlM exact.drawdownStep acc = .ok (snaps.foldl PerformanceCalculator.drawdownStep acc) := by
  induction snaps with
  | nil => exact fun _ => rfl
  | cons snap snaps ih =>
    intro acc
    rw [List.foldlM_cons, exact_drawdownStep]
    exact ih _

theorem exact_calculateMaxDrawdown (snapshots : List PortfolioSnapshot) :
    exact.calculateMaxDrawdown snapshots = .ok (PerformanceCalculator.calculateMaxDrawdown snapshots) := by
  unfold calculateMaxDrawdown PerformanceCalculator.calculateMaxDrawdown
  cases sortedSnaps snapshots with
  | nil => rfl
  | cons first rest =>
    dsimp only
    rw [exact_foldlM_drawdownStep]
    exact exact_quantize2 _

theorem exact_calculateWinRate (closed : List PositionRecord) :
    exact.calculateWinRate closed = .ok (PerformanceCalculator.calculateWinRate closed) := by
  unfold calculateWinRate PerformanceCalculator.calculateWinRate
  dsimp only
  split_ifs with htotal
  · rfl
  · rw [exact_div (Nat.cast_ne_zero.2 htotal)]
    have hmul : ∀ share, exact.mul share 100 = .ok (share * 100) := fun _ => rfl
    simp only [bind, Except.bind]
    rw [hmul]
    dsimp only
    rw [exact_quantize2]
    rfl

theorem exact_calculateProfitFactor (closed : List PositionRecord) :
    exact.calculateProfitFactor closed = .ok (PerformanceCalculator.calculateProfitFactor closed) := by
  have habs : (losses closed).mapM exact.abs = .ok ((losses closed).map (fun x => |x|)) := mapM_eq_ok fun _ _ => rfl
  unfold calculateProfitFactor PerformanceCalculator.calculateProfitFactor
  rw [exact_sum, habs]
  simp only [bind, Except.bind]
  rw [exact_sum]
  unfold profits losses
  dsimp only
  split_ifs with hloss hprofit
  · rfl
  · rfl
  · rw [exact_div hloss]
    dsimp only
    rw [exact_quantize2]
    rfl

theorem exact_averagePct (pcts : List Decimal) :
    exact.averagePct pcts = .ok (PerformanceCalculator.averagePct pcts) := by
  unfold averagePct PerformanceCalculator.averagePct
  split_ifs with hempty
  · rfl
  · rw [exact_mean hempty]
    exact exact_quantize2 _

theorem exact_pnlPct (p : PositionRecord) : exact.pnlPct p = .ok (PerformanceCalculator.pnlPct p) := by
  unfold pnlPct PerformanceCalculator.pnlPct
  cases p.exitPrice with
  | none => rfl
  | some exitPrice =>
    cases hpnl : p.realizedPnl with
    | none =>
      dsimp only
      split_ifs with hentry
      · rfl
      · rw [exact_changePct hentry]
        rfl
    | some pnl =>
      dsimp only
      split_ifs with hentry
      · rfl
      · rw [exact_changePct hentry]
        rfl

theorem exact_calculateAvgWinLoss (closed : List PositionRecord) :
    exact.calculateAvgWinLoss closed = .ok (PerformanceCalculator.calculateAvgWinLoss closed) := by
  have hfound : closed.mapM exact.pnlPct = .ok (closed.map PerformanceCalculator.pnlPct) :=
    mapM_eq_ok fun p _ => exact_pnlPct p
  have hpcts : (closed.map PerformanceCalculator.pnlPct).reduceOption =
    closed.filterMap PerformanceCalculator.pnlPct := by
    rw [List.reduceOption, List.filterMap_map]
    rfl
  have habs : ∀ xs : List Decimal, xs.mapM exact.abs = .ok (xs.map (fun x => |x|)) := fun _ => mapM_eq_ok fun _ _ => rfl
  unfold calculateAvgWinLoss PerformanceCalculator.calculateAvgWinLoss
  rw [hfound]
  simp only [bind, Except.bind]
  rw [hpcts, habs]
  dsimp only
  unfold winPcts lossPcts
  rw [exact_averagePct, exact_averagePct, List.map_map]
  rfl

theorem exact_totalReturn (sorted : List PortfolioSnapshot) :
    exact.totalReturn sorted = .ok (PerformanceCalculator.totalReturn sorted) := by
  unfold totalReturn PerformanceCalculator.totalReturn
  cases sorted.head? with
  | none => rfl
  | some first =>
    cases sorted.getLast? with
    | none => rfl
    | some last =>
      dsimp only
      split_ifs with hchange
      · rw [exact_changePct hchange.2]
        exact exact_quantize2 _
      · rfl

theorem exact_annualizedReturn (sorted : List PortfolioSnapshot) (periodStart periodEnd : ℤ) (total : Decimal) :
    exact.annualizedReturn math sorted periodStart periodEnd total =
      PerformanceCalculator.annualizedReturn math sorted periodStart periodEnd total := by
  have hhundred : (100 : Decimal) ≠ 0 := by norm_num
  unfold annualizedReturn PerformanceCalculator.annualizedReturn
  dsimp only
  split_ifs with hperiod
  · have hdays : ((periodEnd - periodStart : ℤ) : Decimal) ≠ 0 := Int.cast_ne_zero.2 (ne_of_gt hperiod.1)
    have hbase : exact.add 1 (total / 100) = .ok (1 + total / 100) := rfl
    rw [exact_div hhundred]
    simp only [bind, Except.bind]
    rw [hbase, exact_div hdays]
    dsimp only
    cases math.pow (1 + total / 100) (365 / ((periodEnd - periodStart : ℤ) : Decimal)) with
    | error e => rfl
    | ok growth =>
      have hpct : exact.sub growth 1 = .ok (growth - 1) ∧ exact.mul (growth - 1) 100 = .ok ((growth - 1) * 100) :=
        ⟨rfl, rfl⟩
      dsimp only
      rw [hpct.1]
      dsimp only
      rw [hpct.2]
      dsimp only
      rw [exact_quantize2]
  · rfl

include hsquare in
/-- The exact calculator is that of the context that neither rounds nor limits, if squares are exact. -/
theorem exact_calculate (closed : List PositionRecord) (snapshots : List PortfolioSnapshot)
    (periodStart periodEnd : ℤ) (riskFree : Decimal) :
    exact.calculate math closed snapshots periodStart periodEnd riskFree =
      PerformanceCalculator.calculate math closed snapshots periodStart periodEnd riskFree := by
  unfold calculate PerformanceCalculator.calculate
  rw [exact_dailyReturns, exact_calculateMaxDrawdown, exact_calculateWinRate, exact_calculateProfitFactor,
    exact_calculateAvgWinLoss]
  simp only [bind, Except.bind, exact_calculateSharpeRatio hsquare, exact_calculateSortinoRatio hsquare,
    exact_totalReturn, exact_annualizedReturn]

end

end DecimalContext

end TradingAgent
