/-
The robustness verdict of a walk-forward analysis against what it says. A window counts as gaining from a
return of 0.005 percent on, which rounds to 0.01, and a share of 59.5 percent rounds to the threshold.
The returns are those of the exact calculator: the totals of a window are taken to have no more digits
than the decimal context keeps.
-/
import TradingAgent.Backtest.WalkForward

namespace TradingAgent

namespace WalkForwardAnalyzer

open PerformanceCalculator

/-- The result of an out-of-sample period: metrics that were computed from its snapshots, the first of which has
a positive value. -/
structure OosResult where
  window : WalkForwardWindow
  math : DecimalMath
  closedPositions : List PositionRecord
  snapshots : List PortfolioSnapshot
  riskFreeRatePct : Decimal
  first : PortfolioSnapshot
  last : PortfolioSnapshot
  measured : calculate math closedPositions snapshots window.oosStart.toDay window.oosEnd.toDay riskFreeRatePct =
    .ok window.oosMetrics
  head : (sortedSnaps snapshots).head? = some first
  getLast : (sortedSnaps snapshots).getLast? = some last
  positive : 0 < first.totalValue

/-- The value grew over the period. -/
def OosResult.gained (r : OosResult) : Bool := r.first.totalValue < r.last.totalValue

/-- The value grew by at least 0.005 percent. -/
def OosResult.gainedVisibly (r : OosResult) : Bool :=
  r.first.totalValue * 20001 ≤ r.last.totalValue * 20000

variable (results : List OosResult)

/-- The verdict says whether at least 60 percent of the periods gained. -/
def VerdictExact : Prop :=
  isRobust (results.map (·.window)) = true ↔ 3 * results.length ≤ 5 * results.countP (·.gained)

/-! ## Rounding at a threshold -/

/-- A number rounds to a count of hundredths or more from half a hundredth below it on. -/
theorem le_quantize2_iff {x : Decimal} {n : ℤ} (hn : 0 < n) :
    (n : Decimal) / 100 ≤ quantize2 x ↔ (n : Decimal) - 1 / 2 ≤ x * 100 := by
  unfold quantize2
  rw [div_le_div_iff_of_pos_right (by norm_num), Int.cast_le, ← not_lt, ← not_lt, Rounding.halfUp_lt_iff hn]

theorem quantize2_pos_iff {x : Decimal} : 0 < quantize2 x ↔ 1 / 2 ≤ x * 100 := by
  have hcount : 0 < Rounding.halfUp (x * 100) ↔ ¬ Rounding.halfUp (x * 100) < 1 := by omega
  unfold quantize2
  rw [div_pos_iff_of_pos_right (by norm_num), Int.cast_pos, hcount, Rounding.halfUp_lt_iff one_pos, not_lt]
  norm_num

/-! ## The verdict -/

/-- The reported return is positive from a growth of 0.005 percent on. -/
theorem OosResult.totalReturn_pos_iff (r : OosResult) :
    0 < r.window.oosMetrics.totalReturnPct ↔ r.gainedVisibly = true := by
  have hpositive := r.positive
  have hscale : (r.last.totalValue - r.first.totalValue) / r.first.totalValue * 100 * 100 =
      (r.last.totalValue - r.first.totalValue) * 10000 / r.first.totalValue := by ring
  rw [(calculate_eq_ok r.measured).1, totalReturn_eq r.head r.getLast hpositive.ne', quantize2_pos_iff, hscale,
    le_div_iff₀ hpositive]
  unfold gainedVisibly
  rw [decide_eq_true_iff]
  constructor
  · intro h
    linarith
  · intro h
    linarith

/-- The windows are called robust if at least 59.5 percent of them gained visibly. -/
theorem isRobust_iff : isRobust (results.map (·.window)) = true ↔
    results ≠ [] ∧ 119 * results.length ≤ 200 * results.countP (·.gainedVisibly) := by
  have hcount : (results.map (·.window)).countP (fun w => w.oosMetrics.totalReturnPct > 0) =
      results.countP (·.gainedVisibly) := by
    rw [List.countP_map]
    refine List.countP_congr fun r _ => ?_
    rw [Function.comp_apply, decide_eq_true_iff]
    exact r.totalReturn_pos_iff
  unfold isRobust consistencyRatio
  rw [hcount, List.length_map, decide_eq_true_iff, ge_iff_le]
  split
  · rename_i hzero
    have hthreshold : ¬ robustnessThreshold ≤ 0 := by norm_num [robustnessThreshold]
    exact iff_of_false hthreshold fun h => h.1 (List.length_eq_zero_iff.1 hzero)
  · rename_i hlength
    have hpos : (0 : Decimal) < results.length := Nat.cast_pos.2 (Nat.pos_of_ne_zero hlength)
    have hthreshold : robustnessThreshold = ((60 : ℤ) : Decimal) / 100 := by norm_num [robustnessThreshold]
    rw [hthreshold, le_quantize2_iff (by norm_num), and_iff_right (fun h => hlength (List.length_eq_zero_iff.2 h)),
      div_mul_eq_mul_div, le_div_iff₀ hpos, ← Nat.cast_le (α := Decimal)]
    push_cast
    constructor
    · intro h
      linarith
    · intro h
      linarith

/-- The verdict is exact if there is a window, and the share of periods that gained and that of those that gained
visibly are on the same side of 60 and of 59.5 percent. -/
theorem verdictExact_iff : VerdictExact results ↔ results ≠ [] ∧
    ¬ (5 * results.countP (·.gained) < 3 * results.length ∧
      119 * results.length ≤ 200 * results.countP (·.gainedVisibly)) ∧
    ¬ (3 * results.length ≤ 5 * results.countP (·.gained) ∧
      200 * results.countP (·.gainedVisibly) < 119 * results.length) := by
  unfold VerdictExact
  rw [isRobust_iff]
  by_cases hempty : results = []
  · rw [hempty]
    decide
  · rw [and_iff_right hempty, and_iff_right hempty]
    omega

/-! ## Rounding that decides -/

/-- The metrics of two days that start with a million. -/
def twoDayMetrics (lastValue : Decimal) : Except Exn PerformanceMetrics :=
  calculate plainMath [] [cashSnapshot 1 1000000, cashSnapshot 2 lastValue]
    (PyDate.toDay ⟨2025, 6, 2, by decide⟩) (PyDate.toDay ⟨2025, 6, 3, by decide⟩) 0

def twoDayWindow (lastValue : Decimal) : WalkForwardWindow where
  windowIndex := 0
  isStart := ⟨2025, 5, 2, by decide⟩
  isEnd := ⟨2025, 6, 1, by decide⟩
  oosStart := ⟨2025, 6, 2, by decide⟩
  oosEnd := ⟨2025, 6, 3, by decide⟩
  isMetrics := emptyMetrics 0 0
  oosMetrics := (twoDayMetrics lastValue).toOption.getD (emptyMetrics 0 0)
  oosTradeCount := 0

/-- A period of two days that starts with a million. -/
def twoDays (lastValue : Decimal) (h : (twoDayMetrics lastValue).isOk = true) : OosResult where
  window := twoDayWindow lastValue
  math := plainMath
  closedPositions := []
  snapshots := [cashSnapshot 1 1000000, cashSnapshot 2 lastValue]
  riskFreeRatePct := 0
  first := cashSnapshot 1 1000000
  last := cashSnapshot 2 lastValue
  measured := by
    change twoDayMetrics lastValue = .ok ((twoDayMetrics lastValue).toOption.getD _)
    cases hm : twoDayMetrics lastValue with
    | ok m => rfl
    | error e =>
      rw [hm] at h
      cases h
  head := rfl
  getLast := rfl
  positive := by decide +kernel

def flat : OosResult := twoDays 1000000 (by decide +kernel)

def risenByTenWon : OosResult := twoDays 1000010 (by decide +kernel)

def risen : OosResult := twoDays 1100000 (by decide +kernel)

/-- A gain of ten won on a million is not seen, and 25 gains in 42 periods pass for 60 percent. -/
theorem not_verdictExact_rounded :
    ¬ VerdictExact [risenByTenWon] ∧ ¬ VerdictExact (List.replicate 25 risen ++ List.replicate 17 flat) := by
  have htiny : risenByTenWon.gained = true ∧ risenByTenWon.gainedVisibly = false := by decide +kernel
  have hrisen : risen.gained = true ∧ risen.gainedVisibly = true := by decide +kernel
  have hflat : flat.gained = false ∧ flat.gainedVisibly = false := by decide +kernel
  unfold VerdictExact
  rw [isRobust_iff, isRobust_iff]
  constructor
  · simp [htiny]
  · simp [hrisen, hflat]

end WalkForwardAnalyzer

end TradingAgent
