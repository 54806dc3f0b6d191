/-
The backtest engine: a loop over the trading days in which open positions are checked for exits at
the close, the signals of the day before are bought at the open, new signals are raised from the
close and a snapshot is taken; what is left is closed at the end.
-/
import TradingAgent.Backtest.Simulator
import TradingAgent.Backtest.LlmReplay
import TradingAgent.Analysis.Indicators

namespace TradingAgent

/-! ## Configuration and results -/

/-- A value of the parameter dictionary by what `int`, `float` and `Decimal(str(..))` make of it. -/
structure Param where
  asInt : Option ℤ
  asFloat : Option ℚ
  asDecimal : Option Decimal

/-- A plain number as a parameter. -/
def Param.num (q : ℚ) : Param := ⟨some (Rounding.trunc q), some q, some q⟩

structure BacktestConfig where
  strategyType : StrategyType
  startDate : ℤ
  endDate : ℤ
  initialCapital : Decimal := 10000000
  symbols : List String := []
  slippageBps : ℤ := 10
  mode : BacktestMode := .technical
  parameters : Dict String Param := Dict.empty
  llmModelFilter : Option String := none

structure BacktestTradeRecord where
  symbol : String
  side : OrderSide
  quantity : ℤ
  price : Decimal
  commission : Decimal
  slippage : Decimal
  tradeDate : ℤ
  pnl : Option Decimal := none
  exitReason : Option ExitReason := none
  deriving DecidableEq

structure PerformanceMetrics where
  periodStart : ℤ
  periodEnd : ℤ
  totalReturnPct : Decimal
  annualizedReturnPct : Option Decimal
  sharpeRatio : Option Decimal
  sortinoRatio : Option Decimal
  maxDrawdownPct : Decimal
  winRatePct : Decimal
  avgWinPct : Decimal
  avgLossPct : Decimal
  profitFactor : Option Decimal
  totalTrades : ℕ
  winningTrades : ℕ
  losingTrades : ℕ

structure BacktestResult where
  config : BacktestConfig
  status : BacktestStatus
  metrics : Option PerformanceMetrics := none
  trades : List BacktestTradeRecord := []
  totalTrades : ℕ := 0
  errorMessage : Option Exn := none

/-- What an engine is built with: the loaded prices, the broker's costs, the settings, the decision
log behind the session factory if there is one, the indicators, and the performance calculator. -/
structure Bench where
  loader : HistoricalDataLoader
  brokerConfig : BrokerConfig
  settings : Settings
  riskFreeRatePct : Decimal := 35 / 10
  sessionFactory : Option (List DecisionLog) := none
  indicators : Indicators
  calculate : List PositionRecord → List PortfolioSnapshot → ℤ → ℤ → Decimal →
    Except Exn PerformanceMetrics

/-- The in-memory state of an engine. -/
structure BacktestEngine where
  positions : Dict String PositionRecord := Dict.empty
  closedPositions : List PositionRecord := []
  snapshots : List PortfolioSnapshot := []
  trades : List BacktestTradeRecord := []
  pendingSignals : List Signal := []
  highestPrices : Dict String Decimal := Dict.empty
  positionIdCounter : ℕ := 0
  snapshotIdCounter : ℕ := 0
  peakValue : Decimal := 0
  dailyTradeCount : ℕ := 0
  dailyRealizedPnl : Decimal := 0
  llmReplay : Option LLMReplayProvider.Cache := none

/-- An engine and its broker. -/
structure Backtest where
  engine : BacktestEngine
  broker : SimulatedBroker

namespace BacktestEngine

abbrev M := EStateM Exn Backtest

/-- A broker action inside the engine. -/
def onBroker {α : Type} (x : SimulatedBroker.M α) : M α := fun w =>
  match x w.broker with
  | .ok a b => .ok a { w with broker := b }
  | .error e b => .error e { w with broker := b }

/-- A change of the engine's own state. -/
def modifyEngine (f : BacktestEngine → BacktestEngine) : M PUnit :=
  modify (fun w => { w with engine := f w.engine })

/-- Raise the exception of a helper. -/
def liftExcept {α : Type} : Except Exn α → M α
  | .ok a => pure a
  | .error e => throw e

/-- A converted value, or the error of the conversion. -/
def orRaise {α : Type} : Option α → M α
  | some a => pure a
  | none => throw .conversionError

/-! ## Default parameters -/

def posDefaults (key : String) : Param := match key with
  | "sma_short" => .num 20
  | "sma_long" => .num 60
  | "rsi_threshold" => .num 40
  | "atr_stop_mult" => .num 2
  | "atr_tp_mult" => .num 3
  | "trailing_stop_pct" => .num 5
  | _ => .num 60

def swingDefaults (key : String) : Param := match key with
  | "stop_pct" => .num 3
  | "tp_pct" => .num 5
  | "min_signals" => .num 2
  | _ => .num 10

def posParam (config : BacktestConfig) (key : String) : Param :=
  (config.parameters.get? key).getD (posDefaults key)

def swingParam (config : BacktestConfig) (key : String) : Param :=
  (config.parameters.get? key).getD (swingDefaults key)

variable (B : Bench) (config : BacktestConfig)

/-! ## Exits -/

/-- Close a position at the close of the day. -/
def executeExit (symbol : String) (tradingDate : ℤ) (exitReason : String) : M PUnit := do
  match (← get).engine.positions.get? symbol with
  | none => pure ⟨⟩
  | some pos =>
    match B.loader.getClosePrice symbol tradingDate with
    | none => pure ⟨⟩
    | some close =>
      match OrderRequest.make? symbol .sell .limit pos.quantity (some close)
          ("backtest_exit_" ++ exitReason) with
      | none => throw (.validationError "OrderRequest" "quantity")
      | some order =>
        let result ← onBroker (SimulatedBroker.placeOrder B.loader B.brokerConfig order)
        let realizedPnl := (close - pos.avgCost) * pos.quantity - result.commission
        let closed := { pos with
          exitPrice := some close, exitDate := some tradingDate, exitReason := some exitReason
          realizedPnl := some realizedPnl, status := "closed" }
        modifyEngine (fun e => { e with
          closedPositions := e.closedPositions ++ [closed]
          positions := e.positions.erase symbol
          highestPrices := e.highestPrices.erase symbol
          dailyRealizedPnl := e.dailyRealizedPnl + realizedPnl
          dailyTradeCount := e.dailyTradeCount + 1 })
        -- the trade record validates the reason after the position has moved
        match ExitReason.ofValue? exitReason with
        | none => throw (.validationError "BacktestTradeRecord" "exit_reason")
        | some reason =>
          modifyEngine (fun e => { e with
            trades := e.trades ++ [{
              symbol, side := .sell, quantity := pos.quantity, price := close
              commission := result.commission, slippage := 0, tradeDate := tradingDate
              pnl := some realizedPnl, exitReason := some reason }] })

/-- The trailing stop of a position, active once the profit has reached its percentage. -/
def trailingSignal (pos : PositionRecord) (close pnlPct highest : Decimal) :
    Except Exn (Option ExitSignal) :=
  match pos.trailingStopPct with
  | none => .ok none
  | some pct =>
    if pnlPct ≥ pct then do
      let trailingPrice ← ExitPriceCalculator.trailingStopPrice highest pct
      pure (ExitConditionChecker.checkTrailingStop pos close pnlPct trailingPrice)
    else .ok none

/-- The first exit signal of a position at the close: stop loss, trailing stop, target, time. -/
def exitSignal (pos : PositionRecord) (close pnlPct highest : Decimal) (tradingDate : ℤ) :
    Except Exn (Option ExitSignal) := do
  match ExitConditionChecker.checkStopLoss pos close pnlPct with
  | some s => pure (some s)
  | none =>
    match ← trailingSignal pos close pnlPct highest with
    | some s => pure (some s)
    | none =>
      match ExitConditionChecker.checkTakeProfit pos close pnlPct with
      | some s => pure (some s)
      | none =>
        let timeUrgency := match config.strategyType with
          | .position => "next_session"
          | .swing => "end_of_day"
        pure (ExitConditionChecker.checkTimeBased pos close pnlPct tradingDate timeUrgency)

/-- Check one position: raise its highest price and look for an exit signal. -/
def checkExit (tradingDate : ℤ) (symbol : String) (pos : PositionRecord) :
    M (Option (String × String)) := do
  match B.loader.getClosePrice symbol tradingDate with
  | none => pure none
  | some close =>
    if pos.entryPrice = 0 then throw .divisionByZero
    else
      let pnlPct := (close - pos.entryPrice) / pos.entryPrice * 100
      let prevHigh := ((← get).engine.highestPrices.get? symbol).getD pos.entryPrice
      let highest := max prevHigh close
      modifyEngine (fun e => { e with highestPrices := e.highestPrices.set symbol highest })
      let signal ← liftExcept (exitSignal config pos close pnlPct highest tradingDate)
      pure (signal.map (fun s => (symbol, s.reason.value)))

/-- The positions to exit, in the order of the dictionary. -/
def collectExits (tradingDate : ℤ) : List (String × PositionRecord) → M (List (String × String))
  | [] => pure []
  | (symbol, pos) :: items => do
    let found ← checkExit B config tradingDate symbol pos
    let rest ← collectExits tradingDate items
    pure (found.toList ++ rest)

/-- Check the open positions and exit at once those with a signal. -/
def checkExits (tradingDate : ℤ) : M PUnit := do
  let symbolsToExit ← collectExits B config tradingDate (← get).engine.positions.items
  symbolsToExit.forM (fun e => executeExit B e.1 tradingDate e.2)

/-! ## Entries -/

/-- The simplified risk check: the quantity that the caps and the cash leave, if any. -/
def riskCheck (w : Backtest) (symbol : String) (quantity : ℤ) (price : Decimal) : Option ℤ :=
  if (w.engine.positions.items.length : ℤ) ≥ B.settings.maxPortfolioPositions then none
  else if (w.engine.dailyTradeCount : ℤ) ≥ B.settings.maxDailyTrades then none
  else if w.engine.positions.contains symbol then none
  else
    let count (budget : Decimal) : ℤ := if price > 0 then Rounding.trunc (budget / price) else 0
    let maxQtyPct := count (w.broker.getTotalValue * B.settings.maxPositionPct / 100)
    let maxQtyKrw := count B.settings.maxPositionSizeKrw
    let maxQtyCash := count w.broker.cash
    let adjustedQty := min (min (min quantity maxQtyPct) maxQtyKrw) maxQtyCash
    if adjustedQty ≤ 0 then none else some adjustedQty

/-- `result.filled_price or open_price`: a fill price of zero counts as missing. -/
def fillPriceOf (result : OrderResult) (openPrice : Decimal) : Decimal :=
  match result.filledPrice with
  | some p => if p = 0 then openPrice else p
  | none => openPrice

/-- The trailing stop and the longest holding time of a new position. -/
def entryLimits : M (Option Decimal × ℤ) :=
  match config.strategyType with
  | .position => do
    let trailingPct ← orRaise (posParam config "trailing_stop_pct").asDecimal
    let maxDays ← orRaise (posParam config "max_holding_days").asInt
    pure (some trailingPct, maxDays)
  | .swing => do
    let maxDays ← orRaise (swingParam config "max_holding_days").asInt
    pure (none, maxDays)

/-- Record the position and the trade of a filled entry. -/
def recordEntry (signal : Signal) (tradingDate : ℤ) (adjustedQty : ℤ) (openPrice : Decimal)
    (result : OrderResult) : M PUnit := do
  let fillPrice := fillPriceOf result openPrice
  let slippageAmount := |fillPrice - openPrice| * adjustedQty
  let limits ← entryLimits config
  modifyEngine (fun e => { e with
    positionIdCounter := e.positionIdCounter + 1
    positions := e.positions.set signal.symbol {
      id := e.positionIdCounter + 1, symbol := signal.symbol, strategyType := config.strategyType
      quantity := adjustedQty, avgCost := fillPrice, entryPrice := fillPrice
      entryDate := tradingDate, stopLossPrice := signal.stopLossPrice.getD 0
      takeProfitPrice := signal.targetPrice, trailingStopPct := limits.1
      maxHoldingDays := some limits.2, status := "open" }
    highestPrices := e.highestPrices.set signal.symbol fillPrice
    dailyTradeCount := e.dailyTradeCount + 1
    trades := e.trades ++ [{
      symbol := signal.symbol, side := .buy, quantity := adjustedQty, price := fillPrice
      commission := result.commission, slippage := slippageAmount, tradeDate := tradingDate }] })

/-- Execute one signal of the day before at the open. -/
def executeSignal (tradingDate : ℤ) (signal : Signal) : M PUnit := do
  if signal.action ≠ .buy then pure ⟨⟩
  else if (← get).engine.positions.contains signal.symbol then pure ⟨⟩
  else match B.loader.getOpenPrice signal.symbol tradingDate with
    | none => pure ⟨⟩
    | some openPrice =>
      match riskCheck B (← get) signal.symbol signal.quantity openPrice with
      | none => pure ⟨⟩
      | some adjustedQty =>
        match OrderRequest.make? signal.symbol .buy .market adjustedQty none "backtest_entry" with
        | none => throw (.validationError "OrderRequest" "quantity")
        | some order =>
          let placed ← tryCatch
            (some <$> onBroker (SimulatedBroker.placeOrder B.loader B.brokerConfig order))
            (fun _ => pure none)
          match placed with
          | none => pure ⟨⟩
          | some result => recordEntry config signal tradingDate adjustedQty openPrice result

/-- Execute the pending signals at the open of the day. -/
def executePendingSignals (tradingDate : ℤ) : M PUnit := do
  let signals := (← get).engine.pendingSignals
  modifyEngine (fun e => { e with pendingSignals := [] })
  signals.forM (executeSignal B config tradingDate)

/-! ## Signals -/

/-- The last value of a series. -/
def last (xs : List (Option ℚ)) : M (Option ℚ) :=
  match xs.getLast? with
  | some x => pure x
  | none => throw .indexError

/-- The last two values of a series. -/
def lastTwo (xs : List (Option ℚ)) : M (Option ℚ × Option ℚ) :=
  match xs.reverse with
  | curr :: prev :: _ => pure (prev, curr)
  | _ => throw .indexError

/-- The bars of a symbol from the first trading date on. -/
def history (symbol : String) (tradingDate : ℤ) : List DailyOHLCV :=
  B.loader.getOhlcvRange symbol (B.loader.getTradingDates.head?.getD tradingDate) tradingDate

/-- Whether the symbol is held or already has a pending signal. -/
def isTaken (w : Backtest) (symbol : String) : Bool :=
  w.engine.positions.contains symbol || w.engine.pendingSignals.any (fun s => s.symbol == symbol)

/-- Size a BUY at the close with the given stop and target and append its signal. -/
def sizeAndAppend (symbol : String) (entryPrice : Decimal) (slTp : Decimal × Decimal)
    (totalValue confidence : Decimal) (reasoning : SignalReason) : M PUnit := do
  let sizing ← liftExcept
    (PositionSizer.calculate B.settings symbol entryPrice slTp.1 (some slTp.2) totalValue)
  if sizing.quantity ≤ 0 then pure ⟨⟩
  else modifyEngine (fun e => { e with pendingSignals := e.pendingSignals ++ [{
    symbol, action := .buy, confidence, targetPrice := some slTp.2, stopLossPrice := some slTp.1
    quantity := sizing.quantity, positionValueKrw := sizing.positionValueKrw, reasoning }] })

/-- Position strategy for one symbol: short average above the long one and a low RSI. -/
def tryPositionSignal (tradingDate : ℤ) (smaShort smaLong : ℤ) (rsiThreshold : ℚ)
    (atrStopMult atrTpMult totalValue : Decimal) (symbol : String) : M PUnit := do
  if isTaken (← get) symbol then pure ⟨⟩
  else
    let df := history B symbol tradingDate
    if df = [] ∨ (df.length : ℤ) < smaLong then pure ⟨⟩
    else
      let close := df.map (·.close)
      let smaS ← last (← liftExcept (B.indicators.sma close smaShort))
      let smaL ← last (← liftExcept (B.indicators.sma close smaLong))
      let rsiVal ← last (← liftExcept (B.indicators.rsi close 14))
      let atrVal ← last (← liftExcept
        (B.indicators.averageTrueRange (df.map (·.high)) (df.map (·.low)) close 14))
      match smaS, smaL, rsiVal, atrVal with
      | some s, some l, some r, some a =>
        if s > l ∧ r < rsiThreshold then
          match B.loader.getClosePrice symbol tradingDate with
          | none => pure ⟨⟩
          | some entryPrice =>
            let slTp ← liftExcept (ExitPriceCalculator.atrBased entryPrice
              (B.indicators.ofFloat a) atrStopMult atrTpMult)
            sizeAndAppend B symbol entryPrice slTp totalValue (6 / 10)
              (.sma smaShort smaLong r rsiThreshold)
        else pure ⟨⟩
      | _, _, _, _ => pure ⟨⟩

def generatePositionSignals (tradingDate : ℤ) : M PUnit := do
  let smaShort ← orRaise (posParam config "sma_short").asInt
  let smaLong ← orRaise (posParam config "sma_long").asInt
  let rsiThreshold ← orRaise (posParam config "rsi_threshold").asFloat
  let atrStopMult ← orRaise (posParam config "atr_stop_mult").asDecimal
  let atrTpMult ← orRaise (posParam config "atr_tp_mult").asDecimal
  let totalValue := (← get).broker.getTotalValue
  config.symbols.forM (fun symbol => tryCatch
    (tryPositionSignal B tradingDate smaShort smaLong rsiThreshold atrStopMult atrTpMult totalValue symbol)
    (fun _ => pure ⟨⟩))

/-- How many of the three swing conditions hold: RSI rebound over 30, MACD crossing above its
signal, close crossing above the lower band. -/
def swingCount (rsiPrev rsiCurr macdPrev macdCurr sigPrev sigCurr closePrev closeCurr bblPrev
    bblCurr : ℚ) : ℤ :=
  (if rsiPrev < 30 ∧ rsiCurr ≥ 30 then 1 else 0) +
  (if macdPrev ≤ sigPrev ∧ macdCurr > sigCurr then 1 else 0) +
  (if closePrev ≤ bblPrev ∧ closeCurr > bblCurr then 1 else 0)

/-- Swing strategy for one symbol: at least `minSignals` of RSI rebound, MACD golden cross and
rebound from the lower Bollinger band. -/
def trySwingSignal (tradingDate : ℤ) (stopPct tpPct : Decimal) (minSignals : ℤ)
    (totalValue : Decimal) (symbol : String) : M PUnit := do
  if isTaken (← get) symbol then pure ⟨⟩
  else
    let df := history B symbol tradingDate
    if df = [] ∨ df.length < 30 then pure ⟨⟩
    else
      let close := df.map (·.close)
      let rsi ← liftExcept (B.indicators.rsi close 14)
      let (macdLine, macdSignal) ← liftExcept (B.indicators.macd close)
      let bbLower ← liftExcept (B.indicators.bollingerLower close 20)
      if rsi.length < 2 ∨ macdLine.length < 2 ∨ bbLower.length < 2 then pure ⟨⟩
      else
        let rsiVals ← lastTwo rsi
        let macdVals ← lastTwo macdLine
        let sigVals ← lastTwo macdSignal
        let closeVals ← lastTwo (close.map (fun c => some (B.indicators.toFloat c)))
        let bblVals ← lastTwo bbLower
        match rsiVals, macdVals, sigVals, closeVals, bblVals with
        | (some rsiPrev, some rsiCurr), (some macdPrev, some macdCurr), (some sigPrev, some sigCurr),
          (some closePrev, some closeCurr), (some bblPrev, some bblCurr) =>
          let signalCount := swingCount rsiPrev rsiCurr macdPrev macdCurr sigPrev sigCurr closePrev
            closeCurr bblPrev bblCurr
          if signalCount < minSignals then pure ⟨⟩
          else match B.loader.getClosePrice symbol tradingDate with
            | none => pure ⟨⟩
            | some entryPrice =>
              let slTp ← liftExcept (ExitPriceCalculator.fixedPercentage entryPrice stopPct tpPct)
              sizeAndAppend B symbol entryPrice slTp totalValue (5 / 10)
                (.swing signalCount minSignals)
        | _, _, _, _, _ => pure ⟨⟩

def generateSwingSignals (tradingDate : ℤ) : M PUnit := do
  let stopPct ← orRaise (swingParam config "stop_pct").asDecimal
  let tpPct ← orRaise (swingParam config "tp_pct").asDecimal
  let minSignals ← orRaise (swingParam config "min_signals").asInt
  let totalValue := (← get).broker.getTotalValue
  config.symbols.forM (fun symbol => tryCatch
    (trySwingSignal B tradingDate stopPct tpPct minSignals totalValue symbol) (fun _ => pure ⟨⟩))

/-- The average true range at the close of a day, with at least 14 bars. -/
def computeAtr (symbol : String) (tradingDate : ℤ) : M (Option Decimal) := do
  let df := history B symbol tradingDate
  if df = [] ∨ df.length < 14 then pure none
  else
    let val ← last (← liftExcept (B.indicators.averageTrueRange (df.map (·.high)) (df.map (·.low))
      (df.map (·.close)) 14))
    pure (val.map B.indicators.ofFloat)

/-- Stop and target of a replayed BUY by strategy; none without an average true range. -/
def replayExitPrices (symbol : String) (tradingDate : ℤ) (currentPrice : Decimal) :
    M (Option (Decimal × Decimal)) :=
  match config.strategyType with
  | .position => do
    match ← computeAtr B symbol tradingDate with
    | none => pure none
    | some atr =>
      let atrStopMult ← orRaise (posParam config "atr_stop_mult").asDecimal
      let atrTpMult ← orRaise (posParam config "atr_tp_mult").asDecimal
      some <$> liftExcept (ExitPriceCalculator.atrBased currentPrice atr atrStopMult atrTpMult)
  | .swing => do
    let stopPct ← orRaise (swingParam config "stop_pct").asDecimal
    let tpPct ← orRaise (swingParam config "tp_pct").asDecimal
    some <$> liftExcept (ExitPriceCalculator.fixedPercentage currentPrice stopPct tpPct)

/-- Replay for one symbol: the most confident decision of the day, if it is a BUY. -/
def tryReplaySignal (tradingDate : ℤ) (totalValue : Decimal) (symbol : String) : M PUnit := do
  if isTaken (← get) symbol then pure ⟨⟩
  else match (← get).engine.llmReplay with
    | none => throw .assertionError
    | some cache =>
      match LLMReplayProvider.best (LLMReplayProvider.getDecisions cache tradingDate symbol) with
      | none => pure ⟨⟩
      | some best =>
        match B.loader.getClosePrice symbol tradingDate with
        | none => pure ⟨⟩
        | some currentPrice =>
          match LLMReplayProvider.toSignal best with
          | none => pure ⟨⟩
          | some signal =>
            if signal.action ≠ .buy then pure ⟨⟩
            else match ← replayExitPrices B config symbol tradingDate currentPrice with
              | none => pure ⟨⟩
              | some slTp =>
                sizeAndAppend B symbol currentPrice slTp totalValue best.confidence signal.reasoning

def generateReplaySignals (tradingDate : ℤ) : M PUnit := do
  match (← get).engine.llmReplay with
  | none => throw .assertionError
  | some _ =>
    let totalValue := (← get).broker.getTotalValue
    config.symbols.forM (fun symbol => tryCatch
      (tryReplaySignal B config tradingDate totalValue symbol) (fun _ => pure ⟨⟩))

/-- New signals from the close of the day. -/
def generateSignals (tradingDate : ℤ) : M PUnit :=
  match config.mode with
  | .llmReplay => generateReplaySignals B config tradingDate
  | .technical | .llmLive =>
    match config.strategyType with
    | .position => generatePositionSignals B config tradingDate
    | .swing => generateSwingSignals B config tradingDate

/-! ## Snapshots -/

/-- The unrealized result of the positions that have a close on the day. -/
def unrealizedPnl (w : Backtest) (tradingDate : ℤ) : Decimal :=
  (w.engine.positions.values.map (fun pos =>
    match B.loader.getClosePrice pos.symbol tradingDate with
    | none => 0
    | some close => (close - pos.avgCost) * pos.quantity)).sum

/-- Record the snapshot of the day. -/
def recordSnapshot (tradingDate : ℤ) : M PUnit := do
  let w ← get
  let totalValue := w.broker.getTotalValue
  let peak := max w.engine.peakValue totalValue
  modifyEngine (fun e => { e with
    peakValue := peak
    snapshotIdCounter := e.snapshotIdCounter + 1
    snapshots := e.snapshots ++ [{
      id := e.snapshotIdCounter + 1, snapshotDate := tradingDate, totalValue
      cash := w.broker.cash, invested := totalValue - w.broker.cash
      unrealizedPnl := unrealizedPnl B w tradingDate, realizedPnlDaily := e.dailyRealizedPnl
      peakValue := peak
      drawdownPct := if peak > 0 then quantize2 ((peak - totalValue) / peak * 100) else 0
      positionsCount := e.positions.items.length, tradeCountDaily := e.dailyTradeCount }] })

/-! ## The run -/

/-- Close what is left at the end of the simulation. -/
def forceCloseAll (lastDate : ℤ) : M PUnit := do
  let symbols := (← get).engine.positions.keys
  symbols.forM (fun symbol => executeExit B symbol lastDate "backtest_end")

def calculateMetrics : M (Option PerformanceMetrics) := do
  let e := (← get).engine
  if e.snapshots = [] then pure none
  else some <$> liftExcept (B.calculate e.closedPositions e.snapshots config.startDate
    config.endDate B.riskFreeRatePct)

/-- The counters of the day and the date of the broker. -/
def startDay (tradingDate : ℤ) : M PUnit := do
  modifyEngine (fun e => { e with dailyTradeCount := 0, dailyRealizedPnl := 0 })
  onBroker (SimulatedBroker.setCurrentDate B.loader tradingDate)

/-- The steps of one day of the loop. -/
def daySteps (tradingDate : ℤ) : List (M PUnit) :=
  [startDay B tradingDate, checkExits B config tradingDate, executePendingSignals B config tradingDate,
   generateSignals B config tradingDate, recordSnapshot B tradingDate]

/-- The steps of the loop over the trading days. -/
def loopSteps (tradingDates : List ℤ) : List (M PUnit) := tradingDates.flatMap (daySteps B config)

/-- Run steps one after the other. -/
def runAll (steps : List (M PUnit)) : M PUnit := steps.forM id

/-- The trading days of the run. -/
def tradingDates : List ℤ :=
  B.loader.getTradingDates.filter (fun d => config.startDate ≤ d ∧ d ≤ config.endDate)

/-- Reset the engine and load the decisions to replay. -/
def prepare : M PUnit := do
  modify (fun w => { w with engine := { peakValue := config.initialCapital } })
  match config.mode with
  | .llmReplay =>
    match B.sessionFactory with
    | none => throw (.valueError "session_factory is required for LLM_REPLAY mode")
    | some rows =>
      let cache := LLMReplayProvider.load rows config.startDate config.endDate config.symbols
        config.llmModelFilter
      modifyEngine (fun e => { e with llmReplay := some cache })
  | .technical | .llmLive => pure ⟨⟩

/-- The loop is over: close what is left, compute the metrics and build the result. -/
def finish (lastDate : ℤ) : M BacktestResult := do
  if (← get).engine.positions.items ≠ [] then forceCloseAll B lastDate
  let metrics ← calculateMetrics B config
  let e := (← get).engine
  pure { config, status := .completed, metrics, trades := e.trades, totalTrades := e.trades.length }

/-- The body of a run, which may raise. -/
def runBody : M BacktestResult := do
  prepare B config
  match (tradingDates B config).getLast? with
  | none => pure { config, status := .completed }
  | some lastDate =>
    if config.symbols = [] then pure { config, status := .completed }
    else
      runAll (loopSteps B config (tradingDates B config))
      finish B config lastDate

/-- Run a backtest. An exception ends the run with status FAILED and the trades made so far. -/
def run : M BacktestResult :=
  tryCatch (runBody B config) (fun e => do
    let trades := (← get).engine.trades
    pure { config, status := .failed, errorMessage := some e, trades, totalTrades := trades.length })

/-- What a run delivers: its result and the engine that holds its snapshots and closed positions. -/
def outcome : EStateM.Result Exn Backtest BacktestResult → Option (BacktestResult × BacktestEngine)
  | .ok r w => some (r, w.engine)
  | .error _ _ => none

/-- A newly built broker of a bench for a configuration. -/
def newBroker : SimulatedBroker :=
  SimulatedBroker.new { B.brokerConfig with initialCapital := config.initialCapital }

/-! ## Replay benches -/

/-- An indicator library on which every call raises; a swing replay makes none. -/
def noIndicators : Indicators where
  sma _ _ := .error .indicatorError
  rsi _ _ := .error .indicatorError
  macd _ := .error .indicatorError
  bollingerLower _ _ := .error .indicatorError
  averageTrueRange _ _ _ _ := .error .indicatorError
  toFloat x := x
  ofFloat x := x

/-- A bench with a decision log and ten million won, for swing replays. -/
def replayBench (loader : HistoricalDataLoader) (rows : List DecisionLog) (settings : Settings) : Bench where
  loader
  brokerConfig := { initialCapital := 10000000 }
  settings
  sessionFactory := some rows
  indicators := noIndicators
  calculate _ _ _ _ _ := .error .indicatorError

/-- A swing replay of a period. -/
def replayConfig (startDate endDate : ℤ) (symbols : List String) : BacktestConfig :=
  { strategyType := .swing, startDate, endDate, symbols, mode := .llmReplay }

/-- A confident BUY decision made during a day. -/
def buyDecision (decisionId : ℕ) (symbol : String) (day : ℤ) : DecisionLog :=
  { decisionId, stage := "trade_decision", symbol := some symbol, decision := "buy"
    confidence := some (9 / 10), createdAt := day * 86400 }

end BacktestEngine

end TradingAgent
