/-
Signal generation of the two live strategies. A decision of the pipeline becomes an entry if it is a BUY
that clears the entry conditions of the strategy and the position sizer finds room for it; the risk
manager then checks the entry against the portfolio as it stands, and what passes becomes a signal.
-/
import TradingAgent.Strategy.PortfolioState
import TradingAgent.Strategy.RiskManager
import TradingAgent.Analysis.Indicators

namespace TradingAgent

/-- What a strategy asks outside: the broker for daily bars, the indicator library, the stored prices
behind the correlation rule and the stock master. -/
structure SignalSources where
  getDailyOhlcv : String → ℕ → Except Exn (List OHLCV)
  indicators : Indicators
  returns : ReturnsSource
  master : StockMaster

/-- An entry that the sizer found room for; the text of its signal quotes the final quantity. -/
structure SizedEntry where
  symbol : String
  confidence : Decimal
  entryPrice : Decimal
  stopLoss : Decimal
  takeProfit : Decimal
  quantity : ℤ
  reasoning : ℤ → SignalReason
  entryPrice_pos : 0 < entryPrice
  quantity_pos : 0 < quantity

namespace SignalGeneration

/-! ## Steps that both strategies take -/

/-- The analyses by symbol; a later one replaces an earlier one of its symbol. -/
def analysisMap (result : PipelineResult) : Dict String StockAnalysis :=
  result.stockAnalyses.foldl (fun m a => m.set a.symbol a) Dict.empty

/-- The price of the decision or else the current one, if it is positive; a price of zero counts as none. -/
def entryPrice (decision : TradeDecision) (analysis : StockAnalysis) : Option { p : Decimal // 0 < p } :=
  let price := match decision.price with
    | some p => if p = 0 then analysis.currentPrice else some p
    | none => analysis.currentPrice
  match price with
  | none => none
  | some p => if h : 0 < p then some ⟨p, h⟩ else none

/-- The last entry of a series. -/
def latest (xs : List (Option ℚ)) : Except Exn (Option ℚ) :=
  match xs.getLast? with
  | none => .error .indexError
  | some x => .ok x

variable (S : SignalSources) (cfg : Settings) (acct : Account)

/-- Size an entry between its stop and its target on the total value of the portfolio. -/
def size (decision : TradeDecision) (analysis : StockAnalysis) (price : { p : Decimal // 0 < p })
    (stopLoss takeProfit totalValue : Decimal) (reasoning : ℤ → SignalReason) :
    Except Exn (Option SizedEntry) := do
  let sizing ← PositionSizer.calculate cfg decision.symbol price.val stopLoss (some takeProfit) totalValue
  if h : 0 < sizing.quantity then
    pure (some {
      symbol := decision.symbol, confidence := analysis.confidence, entryPrice := price.val, stopLoss
      takeProfit, quantity := sizing.quantity, reasoning, entryPrice_pos := price.property, quantity_pos := h })
  else pure none

/-- The risk check of an entry against the portfolio as it stands. -/
def riskCheck (entry : SizedEntry) : RiskCheckResult :=
  AlgoRiskManager.check cfg S.returns (PortfolioStateService.getCurrentState S.master acct) entry.symbol .buy
    entry.quantity entry.entryPrice (some entry.stopLoss) (S.master.sectorOf entry.symbol)

/-- Whether the risk manager lets an entry through. -/
def Accepts (entry : SizedEntry) : Prop :=
  (riskCheck S cfg acct entry).passed = true ∧ 0 < (riskCheck S cfg acct entry).adjustedQuantity

instance (entry : SizedEntry) : Decidable (Accepts S cfg acct entry) :=
  inferInstanceAs (Decidable (_ ∧ _))

/-- The signal of an entry, with the quantity that the risk manager adjusted. -/
def toSignal (entry : SizedEntry) : Signal :=
  let finalQuantity := (riskCheck S cfg acct entry).adjustedQuantity
  { symbol := entry.symbol
    action := .buy
    confidence := entry.confidence
    targetPrice := some entry.takeProfit
    stopLossPrice := some entry.stopLoss
    quantity := finalQuantity
    positionValueKrw := entry.entryPrice * finalQuantity
    reasoning := entry.reasoning finalQuantity }

/-- The loop over the decisions: every entry is checked, all of them against the same portfolio. -/
def collect (sizedEntry : TradeDecision → Except Exn (Option SizedEntry)) :
    List TradeDecision → Except Exn (List Signal)
  | [] => pure []
  | decision :: decisions => do
    match ← sizedEntry decision with
    | none => collect sizedEntry decisions
    | some entry =>
      if Accepts S cfg acct entry then
        let signals ← collect sizedEntry decisions
        pure (toSignal S cfg acct entry :: signals)
      else collect sizedEntry decisions

end SignalGeneration

/-! ## Position trading -/

namespace PositionTradingStrategy

open SignalGeneration

def minConfidence : Decimal := 60 / 100

def minFundamentalScore : Decimal := 50

def atrPeriod : ℕ := 14

def atrStopMult : Decimal := 2

def atrTpMult : Decimal := 3

def ohlcvLookbackDays : ℕ := 120

/-- The average true range: the mean of the last true ranges, zero with too few bars. -/
def calculateAtr (bars : List OHLCV) (period : ℕ) : Decimal :=
  if bars.length < period + 1 then 0
  else
    let trueRanges := (bars.zip bars.tail).map (fun e =>
      max (max (e.2.high - e.2.low) |e.2.high - e.1.close|) |e.2.low - e.1.close|)
    let recentTrs := trueRanges.drop (trueRanges.length - period)
    recentTrs.sum / period

/-- Whether the short average is at most the long one; a comparison with NaN is false. -/
def noUptrend : Option ℚ → Option ℚ → Bool
  | some sma20, some sma60 => sma20 ≤ sma60
  | _, _ => false

variable (S : SignalSources) (cfg : Settings)

/-- Entry conditions and sizing: confidence and fundamental score, the short average above the long one,
a positive average true range, which sets stop and target, and a price. -/
def sizedEntry (totalValue : Decimal) (analyses : Dict String StockAnalysis) (decision : TradeDecision) :
    Except Exn (Option SizedEntry) :=
  if decision.action ≠ .buy then pure none
  else match analyses.get? decision.symbol with
    | none => pure none
    | some analysis =>
      if analysis.confidence < minConfidence then pure none
      else if analysis.fundamentalScore < minFundamentalScore then pure none
      else do
        let bars ← S.getDailyOhlcv decision.symbol ohlcvLookbackDays
        if bars.length < 60 then pure none
        else
          let close := bars.map (·.close)
          let sma20 ← S.indicators.sma close 20
          let sma60 ← S.indicators.sma close 60
          let latestSma20 ← latest sma20
          let latestSma60 ← latest sma60
          if noUptrend latestSma20 latestSma60 then pure none
          else
            let atr := calculateAtr bars atrPeriod
            if atr ≤ 0 then pure none
            else match entryPrice decision analysis with
              | none => pure none
              | some price => do
                let (stopLoss, takeProfit) ← ExitPriceCalculator.atrBased price.val atr atrStopMult atrTpMult
                size cfg decision analysis price stopLoss takeProfit totalValue
                  (.positionEntry analysis.confidence analysis.fundamentalScore latestSma20 latestSma60 atr
                    stopLoss takeProfit)

def generateSignals (acct : Account) (pipelineResult : PipelineResult) : Except Exn (List Signal) :=
  let portfolioState := PortfolioStateService.getCurrentState S.master acct
  collect S cfg acct (sizedEntry S cfg portfolioState.totalValue (analysisMap pipelineResult))
    pipelineResult.tradeDecisions

end PositionTradingStrategy

/-! ## Swing trading -/

namespace SwingTradingStrategy

open SignalGeneration Indicators

def minConfidence : Decimal := 50 / 100

def minTechnicalConditions : ℕ := 2

def stopLossPct : Decimal := 3

def takeProfitPct : Decimal := 5

def ohlcvLookbackDays : ℕ := 60

/-- Whether the last two entries of a series exist and satisfy a condition on yesterday and today. -/
def turned {α : Type} (xs : List α) (p : α → α → Bool) : Bool :=
  match lastTwo? xs with
  | some (prev, curr) => p prev curr
  | none => false

/-- The technical conditions that hold at the last bar, by number and name: the RSI back over 30, the MACD
line crossing its signal upwards, the close back over the lower Bollinger band. -/
def checkTechnicalConditions (indicators : Indicators) (bars : List OHLCV) : Except Exn (ℕ × List String) := do
  let close := bars.map (·.close)
  let rsi ← indicators.rsi close 14
  let (macdLine, macdSignal) ← indicators.macd close
  let bbLower ← indicators.bollingerLower close 20
  let closeFloats := close.map (fun c => some (indicators.toFloat c))
  let conditionNames :=
    (if turned (dropna rsi) (fun prev curr => prev < 30 ∧ curr ≥ 30) then ["RSI과매도반전"] else []) ++
    (if turned (bothValid macdLine macdSignal) (fun prev curr => prev.1 < prev.2 ∧ curr.1 ≥ curr.2) then
      ["MACD골든크로스"] else []) ++
    (if turned (bothValid closeFloats bbLower) (fun prev curr => prev.1 ≤ prev.2 ∧ curr.1 > curr.2) then
      ["BB하단반등"] else [])
  pure (conditionNames.length, conditionNames)

variable (S : SignalSources) (cfg : Settings)

/-- Entry conditions and sizing: confidence, two of the three technical conditions and a price; stop and
target at fixed percentages. -/
def sizedEntry (totalValue : Decimal) (analyses : Dict String StockAnalysis) (decision : TradeDecision) :
    Except Exn (Option SizedEntry) :=
  if decision.action ≠ .buy then pure none
  else match analyses.get? decision.symbol with
    | none => pure none
    | some analysis =>
      if analysis.confidence < minConfidence then pure none
      else do
        let bars ← S.getDailyOhlcv decision.symbol ohlcvLookbackDays
        if bars.length < 30 then pure none
        else
          let (conditionsMet, conditionNames) ← checkTechnicalConditions S.indicators bars
          if conditionsMet < minTechnicalConditions then pure none
          else match entryPrice decision analysis with
            | none => pure none
            | some price => do
              let (stopLoss, takeProfit) ←
                ExitPriceCalculator.fixedPercentage price.val stopLossPct takeProfitPct
              size cfg decision analysis price stopLoss takeProfit totalValue
                (.swingEntry analysis.confidence conditionNames conditionsMet stopLoss takeProfit)

def generateSignals (acct : Account) (pipelineResult : PipelineResult) : Except Exn (List Signal) :=
  let portfolioState := PortfolioStateService.getCurrentState S.master acct
  collect S cfg acct (sizedEntry S cfg portfolioState.totalValue (analysisMap pipelineResult))
    pipelineResult.tradeDecisions

end SwingTradingStrategy

end TradingAgent
