/-
What an entry and an exit of the backtest can do, exceptions included. An order that the broker fills is booked
there in any case; the engine records an entry unless its limits cannot be read, and an exit in any case, with
its trade unless the reason is unknown.
-/
import TradingAgent.Backtest.Frame

namespace TradingAgent

open Wp

namespace BacktestEngine

variable (B : Bench) (config : BacktestConfig)

/-! ## Entries -/

/-- The trade record of an entry. -/
def entryTrade (signal : Signal) (tradingDate qty : ℤ) (openPrice : Decimal) (result : OrderResult) :
    BacktestTradeRecord where
  symbol := signal.symbol
  side := .buy
  quantity := qty
  price := fillPriceOf result openPrice
  commission := result.commission
  slippage := |fillPriceOf result openPrice - openPrice| * qty
  tradeDate := tradingDate

/-- The position of an entry. -/
def entryPosition (signal : Signal) (tradingDate qty : ℤ) (openPrice : Decimal) (result : OrderResult)
    (limits : Option Decimal × ℤ) (id : ℕ) : PositionRecord where
  id := id
  symbol := signal.symbol
  strategyType := config.strategyType
  quantity := qty
  avgCost := fillPriceOf result openPrice
  entryPrice := fillPriceOf result openPrice
  entryDate := tradingDate
  stopLossPrice := signal.stopLossPrice.getD 0
  takeProfitPrice := signal.targetPrice
  trailingStopPct := limits.1
  maxHoldingDays := some limits.2

/-- The engine after an entry. -/
def entered (signal : Signal) (tradingDate qty : ℤ) (openPrice : Decimal) (result : OrderResult)
    (limits : Option Decimal × ℤ) (e : BacktestEngine) : BacktestEngine :=
  { e with
    positionIdCounter := e.positionIdCounter + 1
    positions := e.positions.set signal.symbol
      (entryPosition config signal tradingDate qty openPrice result limits (e.positionIdCounter + 1))
    highestPrices := e.highestPrices.set signal.symbol (fillPriceOf result openPrice)
    dailyTradeCount := e.dailyTradeCount + 1
    trades := e.trades ++ [entryTrade signal tradingDate qty openPrice result] }

/-- A signal that is bought: nothing bars it, and the broker fills its order. -/
structure Buys (signal : Signal) (tradingDate : ℤ) (openPrice : Decimal) (qty : ℤ) (order : OrderRequest)
    (r : OrderResult) (w : Backtest) (b' : SimulatedBroker) : Prop where
  action : signal.action = .buy
  unheld : w.engine.positions.get? signal.symbol = none
  hasOpen : B.loader.getOpenPrice signal.symbol tradingDate = some openPrice
  risk : riskCheck B w signal.symbol signal.quantity openPrice = some qty
  request : order.symbol = signal.symbol ∧ order.side = .buy ∧ order.orderType = .market ∧ order.quantity = qty
  filled : ∃ d base, SimulatedBroker.Filled B.loader B.brokerConfig order w.broker r b' d base

/-- A signal does nothing or is bought; if its limits cannot be read, only the broker has bought. -/
theorem executeSignal_outcome (tradingDate : ℤ) (signal : Signal) (w : Backtest) :
    wp (executeSignal B config tradingDate signal)
      (fun _ w' => w' = w ∨ ∃ openPrice qty order r limits b', Buys B signal tradingDate openPrice qty order r w b' ∧
        w' = ⟨entered config signal tradingDate qty openPrice r limits w.engine, b'⟩)
      (fun _ w' => w' = w ∨ ∃ openPrice qty order r b', Buys B signal tradingDate openPrice qty order r w b' ∧
        w' = { w with broker := b' }) w := by
  unfold executeSignal
  rw [wp_ite]
  split
  · exact .inl rfl
  rename_i haction
  rw [wp_bind, wp_get, wp_ite]
  split
  · exact .inl rfl
  rename_i hheld
  have hunheld : w.engine.positions.get? signal.symbol = none :=
    (Dict.contains_eq_false_iff _ _).1 (Bool.eq_false_iff.2 hheld)
  cases hopen : B.loader.getOpenPrice signal.symbol tradingDate with
  | none => exact .inl rfl
  | some openPrice =>
    dsimp only
    rw [wp_bind, wp_get]
    cases hrisk : riskCheck B w signal.symbol signal.quantity openPrice with
    | none => exact .inl rfl
    | some qty =>
      dsimp only
      cases hmake : OrderRequest.make? signal.symbol .buy .market qty none "backtest_entry" with
      | none => exact .inl rfl
      | some order =>
        obtain ⟨hsymbol, hside, htype, hquantity, -⟩ := make?_eq_some hmake
        dsimp only
        rw [wp_bind, wp_tryCatch, wp_map, wp_onBroker]
        refine wp_mono (SimulatedBroker.placeOrder_spec B.loader B.brokerConfig order w.broker) ?_ ?_
        · rintro r b' hfilled
          have hbuys : Buys B signal tradingDate openPrice qty order r w b' :=
            ⟨not_not.1 haction, hunheld, hopen, hrisk, ⟨hsymbol, hside, htype, hquantity⟩, hfilled⟩
          unfold recordEntry
          dsimp only
          rw [wp_bind]
          refine wp_mono (keeps_entryLimits (I := (· = { w with broker := b' })) config _ rfl) ?_ ?_
          · rintro limits _ rfl
            exact .inr ⟨openPrice, qty, order, r, limits, b', hbuys, rfl⟩
          · rintro e _ rfl
            exact .inr ⟨openPrice, qty, order, r, b', hbuys, rfl⟩
        · rintro e _ rfl
          exact .inl rfl

/-! ## Exits -/

/-- The result of an exit. -/
def exitPnl (pos : PositionRecord) (close : Decimal) (result : OrderResult) : Decimal :=
  (close - pos.avgCost) * pos.quantity - result.commission

/-- The closed position of an exit. -/
def exitPosition (pos : PositionRecord) (tradingDate : ℤ) (exitReason : String) (close : Decimal)
    (result : OrderResult) : PositionRecord :=
  { pos with
    exitPrice := some close, exitDate := some tradingDate, exitReason := some exitReason
    realizedPnl := some (exitPnl pos close result), status := "closed" }

/-- The trade record of an exit. -/
def exitTrade (symbol : String) (tradingDate : ℤ) (reason : ExitReason) (pos : PositionRecord) (close : Decimal)
    (result : OrderResult) : BacktestTradeRecord where
  symbol := symbol
  side := .sell
  quantity := pos.quantity
  price := close
  commission := result.commission
  slippage := 0
  tradeDate := tradingDate
  pnl := some (exitPnl pos close result)
  exitReason := some reason

/-- The engine after an exit, before its trade is recorded. -/
def exited (symbol : String) (tradingDate : ℤ) (exitReason : String) (pos : PositionRecord) (close : Decimal)
    (result : OrderResult) (e : BacktestEngine) : BacktestEngine :=
  { e with
    closedPositions := e.closedPositions ++ [exitPosition pos tradingDate exitReason close result]
    positions := e.positions.erase symbol
    highestPrices := e.highestPrices.erase symbol
    dailyRealizedPnl := e.dailyRealizedPnl + exitPnl pos close result
    dailyTradeCount := e.dailyTradeCount + 1 }

/-- A position that is sold: it is held, has a close, and the broker fills its order. -/
structure Sells (symbol : String) (tradingDate : ℤ) (pos : PositionRecord) (close : Decimal) (order : OrderRequest)
    (r : OrderResult) (w : Backtest) (b' : SimulatedBroker) : Prop where
  held : w.engine.positions.get? symbol = some pos
  closePrice : B.loader.getClosePrice symbol tradingDate = some close
  request : order.symbol = symbol ∧ order.side = .sell ∧ order.orderType = .limit ∧ order.quantity = pos.quantity ∧
    order.price = some close
  filled : ∃ d base, SimulatedBroker.Filled B.loader B.brokerConfig order w.broker r b' d base

/-- An exit does nothing or sells the position; for an unknown reason it raises instead of recording the trade. -/
theorem executeExit_outcome (symbol : String) (tradingDate : ℤ) (exitReason : String) (w : Backtest) :
    wp (executeExit B symbol tradingDate exitReason)
      (fun _ w' => w' = w ∨ ∃ pos close order r reason b', Sells B symbol tradingDate pos close order r w b' ∧
        w' = ⟨{ exited symbol tradingDate exitReason pos close r w.engine with
          trades := w.engine.trades ++ [exitTrade symbol tradingDate reason pos close r] }, b'⟩)
      (fun _ w' => w' = w ∨ ∃ pos close order r b', Sells B symbol tradingDate pos close order r w b' ∧
        w' = ⟨exited symbol tradingDate exitReason pos close r w.engine, b'⟩) w := by
  unfold executeExit
  rw [wp_bind, wp_get]
  cases hpos : w.engine.positions.get? symbol with
  | none => exact .inl rfl
  | some pos =>
    cases hclose : B.loader.getClosePrice symbol tradingDate with
    | none => exact .inl rfl
    | some close =>
      dsimp only
      cases hmake : OrderRequest.make? symbol .sell .limit pos.quantity (some close)
          ("backtest_exit_" ++ exitReason) with
      | none => exact .inl rfl
      | some order =>
        dsimp only
        rw [wp_bind, wp_onBroker]
        refine wp_mono (SimulatedBroker.placeOrder_spec B.loader B.brokerConfig order w.broker) ?_ ?_
        · rintro r b' hfilled
          have hsells : Sells B symbol tradingDate pos close order r w b' :=
            ⟨hpos, hclose, make?_eq_some hmake, hfilled⟩
          rw [wp_bind, wp_modifyEngine]
          cases ExitReason.ofValue? exitReason with
          | none => exact .inr ⟨pos, close, order, r, b', hsells, rfl⟩
          | some reason => exact .inr ⟨pos, close, order, r, reason, b', hsells, rfl⟩
        · rintro e _ rfl
          exact .inl rfl

end BacktestEngine

end TradingAgent
