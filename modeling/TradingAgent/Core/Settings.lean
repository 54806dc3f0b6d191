/-
The application settings that the modelled components read. Settings the source holds as floats and
passes on through `Decimal(str(x))` are exact numbers here.
-/
import Mathlib.Data.Rat.Floor

namespace TradingAgent

/-- Python's `Decimal`, taken as the exact number it denotes. -/
abbrev Decimal := ℚ

structure Settings where
  -- Trading strategy
  maxPositionSizeKrw : ℤ := 1000000
  maxPortfolioPositions : ℤ := 5
  stopLossPercent : Decimal := 3
  takeProfitPercent : Decimal := 5
  dailyLossLimitKrw : ℤ := 500000
  -- Risk management and position sizing
  riskPerTradePct : Decimal := 2
  maxPositionPct : Decimal := 10
  sectorConcentrationPct : Decimal := 30
  maxDrawdownPct : Decimal := 10
  dailyLossLimitPct : Decimal := 3
  correlationThreshold : Decimal := 7 / 10
  maxDailyTrades : ℤ := 5
  -- Approval
  humanApprovalRequired : Bool := true
  humanApprovalTimeoutSec : ℤ := 300
  autoExecuteMaxPortfolioPct : Decimal := 5
  webVerifyEnabled : Bool := true
  webVerifySkipOnStopLoss : Bool := true

end TradingAgent
