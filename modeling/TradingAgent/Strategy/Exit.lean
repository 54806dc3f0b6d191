/-
Exit prices, exit conditions and position sizing: the stateless helpers that the strategies and the
backtest share. A bad argument raises; the results are exact numbers.
-/
import TradingAgent.Core.Models
import TradingAgent.Lib.Rounding

namespace TradingAgent

/-- What the modelled components raise, with the data their messages quote. -/
inductive Exn
  | valueError (message : String)
  | orderError (message : String)
  | noPriceData (symbol : String) (date : ℤ)
  | insufficientFunds (need held : Decimal)
  | insufficientQuantity (held requested : ℤ)
  | validationError (model field : String)
  | databaseError (message : String)
  | cacheError (message : String)
  | providerError (message : String)
  | keyError
  | httpError (statusCode : ℕ) (detail : String)
  | external (text : String)
  | conversionError
  | divisionByZero
  | indexError
  | indicatorError
  | assertionError
  deriving DecidableEq

/-- `quantize` to the second decimal, ties away from zero. -/
def quantize2 (x : Decimal) : Decimal := Rounding.halfUp (x * 100) / 100

/-- `quantize` to the fourth decimal, ties away from zero. -/
def quantize4 (x : Decimal) : Decimal := Rounding.halfUp (x * 10000) / 10000

/-- `quantize` to a whole number, ties away from zero. -/
def quantize0 (x : Decimal) : Decimal := Rounding.halfUp x

/-! ## Exit prices -/

namespace ExitPriceCalculator

/-- Stop and target at fixed percentages of the entry price. -/
def fixedPercentage (entryPrice stopPct tpPct : Decimal) : Except Exn (Decimal × Decimal) :=
  if entryPrice ≤ 0 then .error (.valueError "entry_price must be positive")
  else if stopPct < 0 then .error (.valueError "stop_pct must be non-negative")
  else if tpPct < 0 then .error (.valueError "tp_pct must be non-negative")
  else .ok (entryPrice * (1 - stopPct / 100), entryPrice * (1 + tpPct / 100))

/-- Stop and target at multiples of the average true range; the stop is at least one won. -/
def atrBased (entryPrice atr stopMult tpMult : Decimal) : Except Exn (Decimal × Decimal) :=
  if entryPrice ≤ 0 then .error (.valueError "entry_price must be positive")
  else if atr ≤ 0 then .error (.valueError "atr must be positive")
  else
    let stopLoss := entryPrice - atr * stopMult
    .ok (if stopLoss ≤ 0 then 1 else stopLoss, entryPrice + atr * tpMult)

def trailingStopPrice (highestSinceEntry trailingPct : Decimal) : Except Exn Decimal :=
  if highestSinceEntry ≤ 0 then .error (.valueError "highest_since_entry must be positive")
  else if trailingPct ≤ 0 then .error (.valueError "trailing_pct must be positive")
  else .ok (highestSinceEntry * (1 - trailingPct / 100))

def riskRewardRatio (entryPrice stopLoss takeProfit : Decimal) : Except Exn Decimal :=
  let risk := |entryPrice - stopLoss|
  if risk = 0 then .error (.valueError "entry_price and stop_loss must differ")
  else .ok (quantize2 (|takeProfit - entryPrice| / risk))

end ExitPriceCalculator

/-! ## Exit conditions -/

namespace ExitConditionChecker

def checkStopLoss (position : PositionRecord) (currentPrice unrealizedPnlPct : Decimal) :
    Option ExitSignal :=
  if currentPrice ≤ position.stopLossPrice then
    some { symbol := position.symbol, reason := .stopLoss, urgency := "immediate", currentPrice
           triggerPrice := some position.stopLossPrice, unrealizedPnlPct
           recommendedAction := .stopLoss }
  else none

def checkTakeProfit (position : PositionRecord) (currentPrice unrealizedPnlPct : Decimal) :
    Option ExitSignal :=
  match position.takeProfitPrice with
  | none => none
  | some target =>
    if currentPrice ≥ target then
      some { symbol := position.symbol, reason := .takeProfit, urgency := "end_of_day", currentPrice
             triggerPrice := some target, unrealizedPnlPct, recommendedAction := .takeProfit }
    else none

def checkTrailingStop (position : PositionRecord)
    (currentPrice unrealizedPnlPct trailingStopPrice : Decimal) : Option ExitSignal :=
  if currentPrice ≤ trailingStopPrice then
    some { symbol := position.symbol, reason := .trailingStop, urgency := "immediate", currentPrice
           triggerPrice := some trailingStopPrice, unrealizedPnlPct, recommendedAction := .sell }
  else none

def checkTimeBased (position : PositionRecord) (currentPrice unrealizedPnlPct : Decimal) (today : ℤ)
    (timeUrgency : String := "end_of_day") : Option ExitSignal :=
  match position.maxHoldingDays with
  | none => none
  | some days =>
    if today - position.entryDate ≥ days then
      some { symbol := position.symbol, reason := .timeBased, urgency := timeUrgency, currentPrice
             unrealizedPnlPct, recommendedAction := .sell }
    else none

end ExitConditionChecker

/-! ## Position sizing -/

/-- Result of the position sizing; `quantity = 0` means that the caps leave no room. -/
structure PositionSizing where
  symbol : String
  entryPrice : Decimal
  stopLossPrice : Decimal
  takeProfitPrice : Option Decimal
  riskPerShare : Decimal
  quantity : ℤ
  positionValueKrw : Decimal
  riskAmountKrw : Decimal
  riskPctOfPortfolio : Decimal
  positionPctOfPortfolio : Decimal
  riskRewardRatio : Option Decimal

namespace PositionSizer

/-- Fixed fractional sizing under the percentage and the won cap. -/
def calculate (cfg : Settings) (symbol : String) (entryPrice stopLossPrice : Decimal)
    (takeProfitPrice : Option Decimal) (totalPortfolioValue : Decimal)
    (existingPositionValue : Decimal := 0) : Except Exn PositionSizing :=
  if entryPrice ≤ 0 then .error (.valueError "entry_price must be positive")
  else if stopLossPrice ≤ 0 then .error (.valueError "stop_loss_price must be positive")
  else if entryPrice = stopLossPrice then
    .error (.valueError "stop_loss_price must differ from entry_price")
  else if totalPortfolioValue ≤ 0 then
    .error (.valueError "total_portfolio_value must be positive")
  else do
    let riskAmount := totalPortfolioValue * cfg.riskPerTradePct / 100
    let riskPerShare := |entryPrice - stopLossPrice|
    let rawQty := Rounding.trunc (riskAmount / riskPerShare)
    let maxByPct := totalPortfolioValue * cfg.maxPositionPct / 100
    let maxQtyPct := Rounding.trunc (maxByPct / entryPrice)
    let maxQtyKrw := Rounding.trunc ((cfg.maxPositionSizeKrw : Decimal) / entryPrice)
    let existingEquiv := Rounding.trunc (existingPositionValue / entryPrice)
    let capFromPct := max 0 (maxQtyPct - existingEquiv)
    let capFromKrw := max 0 (maxQtyKrw - existingEquiv)
    let quantity := max 0 (min (min (max 1 rawQty) capFromPct) capFromKrw)
    let positionValueKrw := quantity * entryPrice
    let actualRiskAmount := quantity * riskPerShare
    let rrRatio ← match takeProfitPrice with
      | none => pure none
      | some target => some <$> ExitPriceCalculator.riskRewardRatio entryPrice stopLossPrice target
    pure {
      symbol, entryPrice, stopLossPrice, takeProfitPrice, riskPerShare, quantity, positionValueKrw
      riskAmountKrw := actualRiskAmount
      riskPctOfPortfolio :=
        if quantity > 0 then quantize2 (actualRiskAmount / totalPortfolioValue * 100) else 0
      positionPctOfPortfolio :=
        if quantity > 0 then quantize2 (positionValueKrw / totalPortfolioValue * 100) else 0
      riskRewardRatio := rrRatio }

end PositionSizer

end TradingAgent
