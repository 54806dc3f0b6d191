/-
The exit checks of the two live strategies. Both look at the stop loss, at their trailing stop once the profit
is large enough, at the target and at the holding time, in this order. They differ in the profit that activates
the trailing stop, in its width and in how soon an overdue position is closed.
-/

import TradingAgent.Strategy.SignalGeneration

namespace TradingAgent

/-- What an exit check asks outside: the broker for the price and the daily bars, and the date of today. -/
structure ExitSources where
  getPrice : String → Except Exn Decimal
  getDailyOhlcv : String → ℕ → Except Exn (List OHLCV)
  today : ℤ

/-- The checks that the strategies have in common. The highest price and the width of the trailing stop are
fetched only when the profit has reached the activation level. -/
def checkExitConditions (activatePct : Decimal) (trail : Except Exn (Option (Decimal × Decimal)))
    (timeUrgency : String) (position : PositionRecord) (currentPrice : Decimal) (today : ℤ) :
    Except Exn (Option ExitSignal) :=
  if position.entryPrice = 0 then .error .divisionByZero
  else
    let unrealizedPnlPct := (currentPrice - position.entryPrice) / position.entryPrice * 100
    match ExitConditionChecker.checkStopLoss position currentPrice unrealizedPnlPct with
    | some s => .ok (some s)
    | none => do
      let trailing ←
        if unrealizedPnlPct ≥ activatePct then do
          match ← trail with
          | none => pure none
          | some (highest, pct) =>
            let trailingStop ← ExitPriceCalculator.trailingStopPrice highest pct
            pure (ExitConditionChecker.checkTrailingStop position currentPrice unrealizedPnlPct trailingStop)
        else pure none
      match trailing with
      | some s => pure (some s)
      | none =>
        match ExitConditionChecker.checkTakeProfit position currentPrice unrealizedPnlPct with
        | some s => pure (some s)
        | none => pure (ExitConditionChecker.checkTimeBased position currentPrice unrealizedPnlPct today timeUrgency)

/-- The highest price of the bars since the entry, if there are any. -/
def highestSinceEntry (position : PositionRecord) (bars : List OHLCV) : Option Decimal :=
  ((bars.filter (fun bar => bar.date ≥ position.entryDate)).map (·.high)).max?

namespace SwingTradingStrategy

def trailingActivatePct : Decimal := 3

def trailingTrailPct : Decimal := 2

/-- Highest price and width of the trailing stop. -/
def trail (position : PositionRecord) (bars : List OHLCV) : Option (Decimal × Decimal) :=
  (highestSinceEntry position bars).map (fun highest => (highest, trailingTrailPct))

def checkExitConditions (S : ExitSources) (position : PositionRecord) : Except Exn (Option ExitSignal) := do
  let currentPrice ← S.getPrice position.symbol
  TradingAgent.checkExitConditions trailingActivatePct
    (trail position <$> S.getDailyOhlcv position.symbol ohlcvLookbackDays) "end_of_day" position currentPrice S.today

end SwingTradingStrategy

namespace PositionTradingStrategy

def trailingActivatePct : Decimal := 5

def trailingAtrMult : Decimal := 15 / 10

/-- The width of the trailing stop: a multiple of the average true range, or the stored one with too few bars. -/
def trailingPct (position : PositionRecord) (bars : List OHLCV) : Option Decimal :=
  if bars.length ≥ atrPeriod + 1 then
    some (calculateAtr bars atrPeriod * trailingAtrMult / position.entryPrice * 100)
  else position.trailingStopPct

/-- Highest price and width of the trailing stop. -/
def trail (position : PositionRecord) (bars : List OHLCV) : Option (Decimal × Decimal) := do
  let highest ← highestSinceEntry position bars
  let pct ← trailingPct position bars
  pure (highest, pct)

def checkExitConditions (S : ExitSources) (position : PositionRecord) : Except Exn (Option ExitSignal) := do
  let currentPrice ← S.getPrice position.symbol
  TradingAgent.checkExitConditions trailingActivatePct
    (trail position <$> S.getDailyOhlcv position.symbol ohlcvLookbackDays) "next_session" position currentPrice S.today

end PositionTradingStrategy

end TradingAgent
