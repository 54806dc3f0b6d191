/-
The technical indicators, as the strategies and the backtest use them: calls into an indicator library
on floats, taken as they come, and the readings of a series that do not depend on how it was computed.
-/
import TradingAgent.Strategy.Exit

namespace TradingAgent

/-- The indicator library on columns of prices: series of floats in which `none` is NaN, and the
conversions between decimals and floats. A call may raise. -/
structure Indicators where
  sma : List Decimal → ℤ → Except Exn (List (Option ℚ))
  rsi : List Decimal → ℤ → Except Exn (List (Option ℚ))
  macd : List Decimal → Except Exn (List (Option ℚ) × List (Option ℚ))
  bollingerLower : List Decimal → ℤ → Except Exn (List (Option ℚ))
  averageTrueRange : List Decimal → List Decimal → List Decimal → ℤ → Except Exn (List (Option ℚ))
  toFloat : Decimal → ℚ
  ofFloat : ℚ → Decimal

namespace Indicators

/-- The last two entries of a series, the older one first. -/
def lastTwo? {α : Type} (xs : List α) : Option (α × α) :=
  match xs.reverse with
  | curr :: prev :: _ => some (prev, curr)
  | _ => none

/-- The entries of a series that are numbers. -/
def dropna (xs : List (Option ℚ)) : List ℚ := xs.filterMap id

/-- Two series over the same days, on the days on which both are numbers. -/
def bothValid (xs ys : List (Option ℚ)) : List (ℚ × ℚ) :=
  (xs.zip ys).filterMap (fun e => e.1.bind (fun x => e.2.map (fun y => (x, y))))

end Indicators

end TradingAgent
