/-
What the steps of a backtest leave alone. Looking for exits changes only the highest prices, raising
signals only the pending signals, a snapshot only the snapshots and the peak, and an order only the
broker. Any property that survives these changes survives the step.
-/
import TradingAgent.Backtest.Engine

namespace TradingAgent

open Wp

namespace BacktestEngine

variable {I : Backtest → Prop}

/-! ## Building blocks -/

theorem wp_onBroker {α : Type} (x : SimulatedBroker.M α) {Q : α → Backtest → Prop}
    {R : Exn → Backtest → Prop} {w : Backtest} : wp (onBroker x) Q R w =
      wp x (fun a b => Q a { w with broker := b }) (fun e b => R e { w with broker := b }) w.broker := by
  unfold wp onBroker
  cases x w.broker <;> rfl

theorem wp_modifyEngine (f : BacktestEngine → BacktestEngine) {Q : PUnit → Backtest → Prop}
    {R : Exn → Backtest → Prop} {w : Backtest} :
    wp (modifyEngine f) Q R w = Q ⟨⟩ { w with engine := f w.engine } := rfl

theorem keeps_liftExcept {α : Type} (x : Except Exn α) : Keeps I (liftExcept x) := by
  cases x with
  | ok a => exact keeps_pure a
  | error e => exact keeps_throw e

theorem keeps_orRaise {α : Type} (o : Option α) : Keeps I (orRaise o) := by
  cases o with
  | none => exact keeps_throw _
  | some a => exact keeps_pure a

theorem keeps_last (xs : List (Option ℚ)) : Keeps I (last xs) := by
  unfold last
  split
  · exact keeps_pure _
  · exact keeps_throw _

theorem keeps_lastTwo (xs : List (Option ℚ)) : Keeps I (lastTwo xs) := by
  unfold lastTwo
  split
  · exact keeps_pure _
  · exact keeps_throw _

variable (B : Bench) (config : BacktestConfig)

theorem keeps_entryLimits : Keeps I (entryLimits config) := by
  unfold entryLimits
  cases config.strategyType with
  | position =>
    exact keeps_bind (keeps_orRaise _) fun _ => keeps_bind (keeps_orRaise _) fun _ => keeps_pure _
  | swing => exact keeps_bind (keeps_orRaise _) fun _ => keeps_pure _

/-! ## Looking for exits -/

theorem keeps_collectExits (hI : ∀ w h, I w → I { w with engine := { w.engine with highestPrices := h } })
    (tradingDate : ℤ) :
    ∀ items : List (String × PositionRecord), Keeps I (collectExits B config tradingDate items)
  | [] => keeps_pure _
  | (symbol, pos) :: items => by
    have hcheck : Keeps I (checkExit B config tradingDate symbol pos) := by
      unfold checkExit
      split
      · exact keeps_pure _
      · split
        · exact keeps_throw _
        · exact keeps_bind keeps_get fun w => keeps_bind (keeps_modify fun w h => hI w _ h) fun _ =>
            keeps_bind (keeps_liftExcept _) fun _ => keeps_pure _
    exact keeps_bind hcheck fun _ => keeps_bind (keeps_collectExits hI tradingDate items) fun _ =>
      keeps_pure _

/-! ## Raising signals -/

section Signals

variable (hI : ∀ w ps, I w → I { w with engine := { w.engine with pendingSignals := ps } })

include hI

theorem keeps_sizeAndAppend (symbol : String) (entryPrice : Decimal) (slTp : Decimal × Decimal)
    (totalValue confidence : Decimal) (reasoning : SignalReason) :
    Keeps I (sizeAndAppend B symbol entryPrice slTp totalValue confidence reasoning) := by
  unfold sizeAndAppend
  refine keeps_bind (keeps_liftExcept _) fun sizing => ?_
  split
  · exact keeps_pure _
  · exact keeps_modify fun w h => hI w _ h

theorem keeps_tryPositionSignal (tradingDate smaShort smaLong : ℤ) (rsiThreshold : ℚ)
    (atrStopMult atrTpMult totalValue : Decimal) (symbol : String) :
    Keeps I (tryPositionSignal B tradingDate smaShort smaLong rsiThreshold atrStopMult atrTpMult
      totalValue symbol) := by
  unfold tryPositionSignal
  refine keeps_bind keeps_get fun w => ?_
  split
  · exact keeps_pure _
  dsimp only
  split
  · exact keeps_pure _
  refine keeps_bind (keeps_liftExcept _) fun _ => keeps_bind (keeps_last _) fun _ => ?_
  refine keeps_bind (keeps_liftExcept _) fun _ => keeps_bind (keeps_last _) fun _ => ?_
  refine keeps_bind (keeps_liftExcept _) fun _ => keeps_bind (keeps_last _) fun _ => ?_
  refine keeps_bind (keeps_liftExcept _) fun _ => keeps_bind (keeps_last _) fun _ => ?_
  split
  · split
    · split
      · exact keeps_pure _
      · exact keeps_bind (keeps_liftExcept _) fun _ => keeps_sizeAndAppend B hI _ _ _ _ _ _
    · exact keeps_pure _
  · exact keeps_pure _

theorem keeps_trySwingSignal (tradingDate : ℤ) (stopPct tpPct : Decimal) (minSignals : ℤ)
    (totalValue : Decimal) (symbol : String) :
    Keeps I (trySwingSignal B tradingDate stopPct tpPct minSignals totalValue symbol) := by
  unfold trySwingSignal
  refine keeps_bind keeps_get fun w => ?_
  split
  · exact keeps_pure _
  dsimp only
  split
  · exact keeps_pure _
  refine keeps_bind (keeps_liftExcept _) fun _ => keeps_bind (keeps_liftExcept _) fun _ => ?_
  refine keeps_bind (keeps_liftExcept _) fun _ => ?_
  split
  · exact keeps_pure _
  refine keeps_bind (keeps_lastTwo _) fun _ => keeps_bind (keeps_lastTwo _) fun _ => ?_
  refine keeps_bind (keeps_lastTwo _) fun _ => keeps_bind (keeps_lastTwo _) fun _ => ?_
  refine keeps_bind (keeps_lastTwo _) fun _ => ?_
  split
  · split
    · exact keeps_pure _
    · split
      · exact keeps_pure _
      · exact keeps_bind (keeps_liftExcept _) fun _ => keeps_sizeAndAppend B hI _ _ _ _ _ _
  · exact keeps_pure _

omit hI in
theorem keeps_replayExitPrices (symbol : String) (tradingDate : ℤ) (currentPrice : Decimal) :
    Keeps I (replayExitPrices B config symbol tradingDate currentPrice) := by
  have hatr : Keeps I (computeAtr B symbol tradingDate) := by
    unfold computeAtr
    dsimp only
    split
    · exact keeps_pure _
    · exact keeps_bind (keeps_liftExcept _) fun _ => keeps_bind (keeps_last _) fun _ => keeps_pure _
  unfold replayExitPrices
  cases config.strategyType with
  | position =>
    refine keeps_bind hatr fun atr => ?_
    cases atr with
    | none => exact keeps_pure _
    | some atr =>
      exact keeps_bind (keeps_orRaise _) fun _ => keeps_bind (keeps_orRaise _) fun _ =>
        keeps_map _ (keeps_liftExcept _)
  | swing =>
    exact keeps_bind (keeps_orRaise _) fun _ => keeps_bind (keeps_orRaise _) fun _ =>
      keeps_map _ (keeps_liftExcept _)

theorem keeps_tryReplaySignal (tradingDate : ℤ) (totalValue : Decimal) (symbol : String) :
    Keeps I (tryReplaySignal B config tradingDate totalValue symbol) := by
  unfold tryReplaySignal
  refine keeps_bind keeps_get fun w => ?_
  split
  · exact keeps_pure _
  refine keeps_bind keeps_get fun w => ?_
  split
  · exact keeps_throw _
  split
  · exact keeps_pure _
  split
  · exact keeps_pure _
  split
  · exact keeps_pure _
  split
  · exact keeps_pure _
  refine keeps_bind (keeps_replayExitPrices B config _ _ _) fun slTp => ?_
  cases slTp with
  | none => exact keeps_pure _
  | some slTp => exact keeps_sizeAndAppend B hI _ _ _ _ _ _

/-- Raising signals keeps whatever does not depend on the pending signals. -/
theorem keeps_generateSignals (tradingDate : ℤ) : Keeps I (generateSignals B config tradingDate) := by
  have hpos : Keeps I (generatePositionSignals B config tradingDate) := by
    unfold generatePositionSignals
    refine keeps_bind (keeps_orRaise _) fun _ => keeps_bind (keeps_orRaise _) fun _ => ?_
    refine keeps_bind (keeps_orRaise _) fun _ => keeps_bind (keeps_orRaise _) fun _ => ?_
    refine keeps_bind (keeps_orRaise _) fun _ => keeps_bind keeps_get fun _ => ?_
    exact keeps_forM fun _ _ => keeps_tryCatch (keeps_tryPositionSignal B hI _ _ _ _ _ _ _ _)
      fun _ => keeps_pure _
  have hswing : Keeps I (generateSwingSignals B config tradingDate) := by
    unfold generateSwingSignals
    refine keeps_bind (keeps_orRaise _) fun _ => keeps_bind (keeps_orRaise _) fun _ => ?_
    refine keeps_bind (keeps_orRaise _) fun _ => keeps_bind keeps_get fun _ => ?_
    exact keeps_forM fun _ _ => keeps_tryCatch (keeps_trySwingSignal B hI _ _ _ _ _ _)
      fun _ => keeps_pure _
  have hreplay : Keeps I (generateReplaySignals B config tradingDate) := by
    unfold generateReplaySignals
    refine keeps_bind keeps_get fun _ => ?_
    split
    · exact keeps_throw _
    · refine keeps_bind keeps_get fun _ => ?_
      exact keeps_forM fun _ _ => keeps_tryCatch (keeps_tryReplaySignal B config hI _ _ _)
        fun _ => keeps_pure _
  unfold generateSignals
  cases config.mode with
  | llmReplay => exact hreplay
  | technical =>
    cases config.strategyType with
    | position => exact hpos
    | swing => exact hswing
  | llmLive =>
    cases config.strategyType with
    | position => exact hpos
    | swing => exact hswing

end Signals

/-! ## Snapshots -/

/-- A snapshot keeps whatever does not depend on the snapshots, their counter and the peak. -/
theorem keeps_recordSnapshot (hI : ∀ w s n p, I w →
      I { w with engine := { w.engine with snapshots := s, snapshotIdCounter := n, peakValue := p } })
    (tradingDate : ℤ) : Keeps I (recordSnapshot B tradingDate) := by
  unfold recordSnapshot
  exact keeps_bind keeps_get fun w₀ => keeps_modify fun w h => hI w _ _ _ h

/-! ## Orders -/

/-- A property that a filled order of the side keeps. -/
def OrderStable (side : OrderSide) (I : Backtest → Prop) : Prop :=
  ∀ w order r b' d base, order.side = side → I w →
    SimulatedBroker.Filled B.loader B.brokerConfig order w.broker r b' d base → I { w with broker := b' }

/-- A property that reads of the engine only the pending signals. -/
def PendingOnly (I : Backtest → Prop) : Prop :=
  ∀ w e', e'.pendingSignals = w.engine.pendingSignals → I w → I { w with engine := e' }

/-- A property that reads of the engine only what trading leaves alone: the pending signals, the
snapshots and the peak. -/
def OffTrading (I : Backtest → Prop) : Prop :=
  ∀ w e', e'.pendingSignals = w.engine.pendingSignals → e'.snapshots = w.engine.snapshots →
    e'.peakValue = w.engine.peakValue → I w → I { w with engine := e' }

theorem PendingOnly.offTrading (h : PendingOnly I) : OffTrading I := fun w e' hp _ _ hw => h w e' hp hw

theorem keeps_placeOrder {order : OrderRequest} (hI : OrderStable B order.side I) :
    Keeps I (onBroker (SimulatedBroker.placeOrder B.loader B.brokerConfig order)) := by
  intro w hw
  rw [wp_onBroker]
  refine wp_mono (SimulatedBroker.placeOrder_spec B.loader B.brokerConfig order w.broker) ?_ ?_
  · rintro r b' ⟨d, base, hf⟩; exact hI _ _ _ _ _ _ rfl hw hf
  · rintro e b' rfl; exact hw

theorem make?_eq_some {symbol : String} {side : OrderSide} {orderType : OrderType} {quantity : ℤ}
    {price : Option Decimal} {reason accountId : String} {order : OrderRequest}
    (h : OrderRequest.make? symbol side orderType quantity price reason accountId = some order) :
    order.symbol = symbol ∧ order.side = side ∧ order.orderType = orderType ∧
      order.quantity = quantity ∧ order.price = price := by
  unfold OrderRequest.make? at h
  split at h
  · cases h; exact ⟨rfl, rfl, rfl, rfl, rfl⟩
  · cases h

theorem keeps_executeExit (hsell : OrderStable B .sell I) (hI : OffTrading I) (symbol : String)
    (tradingDate : ℤ) (exitReason : String) : Keeps I (executeExit B symbol tradingDate exitReason) := by
  unfold executeExit
  refine keeps_bind keeps_get fun w => ?_
  split
  · exact keeps_pure _
  split
  · exact keeps_pure _
  split
  · exact keeps_throw _
  rename_i order hmake
  have hside : OrderStable B order.side I := (make?_eq_some hmake).2.1 ▸ hsell
  refine keeps_bind (keeps_placeOrder B hside) fun r =>
    keeps_bind (keeps_modify fun w h => hI _ _ rfl rfl rfl h) fun _ => ?_
  split
  · exact keeps_throw _
  · exact keeps_modify fun w h => hI _ _ rfl rfl rfl h

theorem keeps_checkExits (hsell : OrderStable B .sell I) (hI : OffTrading I) (tradingDate : ℤ) :
    Keeps I (checkExits B config tradingDate) := by
  unfold checkExits
  refine keeps_bind keeps_get fun w => ?_
  exact keeps_bind (keeps_collectExits B config (fun w _ h => hI _ _ rfl rfl rfl h) _ _) fun found =>
    keeps_forM fun e _ => keeps_executeExit B hsell hI e.1 tradingDate e.2

theorem keeps_executeSignal (hbuy : OrderStable B .buy I) (hI : OffTrading I) (tradingDate : ℤ)
    (signal : Signal) : Keeps I (executeSignal B config tradingDate signal) := by
  unfold executeSignal
  split
  · exact keeps_pure _
  refine keeps_bind keeps_get fun w => ?_
  split
  · exact keeps_pure _
  split
  · exact keeps_pure _
  refine keeps_bind keeps_get fun w => ?_
  split
  · exact keeps_pure _
  split
  · exact keeps_throw _
  rename_i order hmake
  have hside : OrderStable B order.side I := (make?_eq_some hmake).2.1 ▸ hbuy
  refine keeps_bind (keeps_tryCatch (keeps_map _ (keeps_placeOrder B hside)) fun _ => keeps_pure _)
    fun placed => ?_
  split
  · exact keeps_pure _
  · exact keeps_bind (keeps_entryLimits config) fun _ => keeps_modify fun w h => hI _ _ rfl rfl rfl h

/-! ## Holdings -/

/-- A property that reads of a backtest only the positions of the engine and their highest prices. -/
def HoldingsOnly (I : Backtest → Prop) : Prop :=
  ∀ w e' b, e'.positions = w.engine.positions → e'.highestPrices = w.engine.highestPrices → I w →
    I { engine := e', broker := b }

theorem HoldingsOnly.orderStable (hI : HoldingsOnly I) (side : OrderSide) : OrderStable B side I :=
  fun _ _ _ _ _ _ _ hw _ => hI _ _ _ rfl rfl hw

/-- An exit keeps a property of the holdings that survives the removal of its position. -/
theorem keeps_executeExit_holdings (hI : HoldingsOnly I) {symbol : String}
    (herase : ∀ w e', e'.positions = w.engine.positions.erase symbol →
      e'.highestPrices = w.engine.highestPrices.erase symbol → I w → I { w with engine := e' })
    (tradingDate : ℤ) (exitReason : String) : Keeps I (executeExit B symbol tradingDate exitReason) := by
  unfold executeExit
  refine keeps_bind keeps_get fun w => ?_
  split
  · exact keeps_pure _
  split
  · exact keeps_pure _
  split
  · exact keeps_throw _
  refine keeps_bind (keeps_placeOrder B (hI.orderStable B _)) fun r =>
    keeps_bind (keeps_modify fun w h => herase w _ rfl rfl h) fun _ => ?_
  split
  · exact keeps_throw _
  · exact keeps_modify fun w h => hI w _ _ rfl rfl h

/-- A signal keeps a property of the holdings that survives the entry of a position that is not held and that
the risk check lets through. -/
theorem keeps_executeSignal_holdings (hI : HoldingsOnly I) {signal : Signal}
    (hset : ∀ w e' b openPrice qty pos price, w.engine.positions.get? signal.symbol = none →
      riskCheck B w signal.symbol signal.quantity openPrice = some qty →
      e'.positions = w.engine.positions.set signal.symbol pos →
      e'.highestPrices = w.engine.highestPrices.set signal.symbol price → I w → I { engine := e', broker := b })
    (tradingDate : ℤ) : Keeps I (executeSignal B config tradingDate signal) := by
  intro w hw
  unfold executeSignal
  rw [wp_ite]
  split
  · exact hw
  rw [wp_bind, wp_get, wp_ite]
  split
  · exact hw
  rename_i hheld
  have hnone : w.engine.positions.get? signal.symbol = none :=
    (Dict.contains_eq_false_iff _ _).1 (Bool.eq_false_iff.2 hheld)
  cases B.loader.getOpenPrice signal.symbol tradingDate with
  | none => exact hw
  | some openPrice =>
    dsimp only
    rw [wp_bind, wp_get]
    cases hrisk : riskCheck B w signal.symbol signal.quantity openPrice with
    | none => exact hw
    | some qty =>
      dsimp only
      cases OrderRequest.make? signal.symbol .buy .market qty none "backtest_entry" with
      | none => exact hw
      | some order =>
        dsimp only
        -- the order changes nothing but the broker
        have hplace : Keeps (fun w' => w'.engine = w.engine)
            (onBroker (SimulatedBroker.placeOrder B.loader B.brokerConfig order)) :=
          keeps_placeOrder B fun _ _ _ _ _ _ _ h _ => h
        rw [wp_bind]
        refine wp_mono (keeps_tryCatch (keeps_map some hplace) (fun _ => keeps_pure none) w rfl) ?_ ?_
        · rintro placed ⟨_, b⟩ rfl
          cases placed with
          | none => exact hI w _ b rfl rfl hw
          | some result =>
            unfold recordEntry
            dsimp only
            rw [wp_bind]
            refine wp_mono (keeps_entryLimits (I := (· = { w with broker := b })) config _ rfl) ?_ ?_
            · rintro limits _ rfl
              exact hset w _ b openPrice qty _ _ hnone hrisk rfl rfl hw
            · rintro e _ rfl
              exact hI w _ b rfl rfl hw
        · rintro e ⟨_, b⟩ rfl
          exact hI w _ b rfl rfl hw

theorem keeps_startDay_holdings (hI : HoldingsOnly I) (tradingDate : ℤ) : Keeps I (startDay B tradingDate) := by
  intro w hw
  unfold startDay SimulatedBroker.setCurrentDate
  rw [wp_bind, wp_modifyEngine, wp_onBroker, wp_modify]
  exact hI w _ _ rfl rfl hw

theorem keeps_generateSignals_holdings (hI : HoldingsOnly I) (tradingDate : ℤ) :
    Keeps I (generateSignals B config tradingDate) :=
  keeps_generateSignals B config (fun w _ h => hI w _ _ rfl rfl h) tradingDate

theorem keeps_recordSnapshot_holdings (hI : HoldingsOnly I) (tradingDate : ℤ) :
    Keeps I (recordSnapshot B tradingDate) :=
  keeps_recordSnapshot B (fun w _ _ _ h => hI w _ _ rfl rfl h) tradingDate

/-- Carrying out the pending signals keeps what each of them keeps. -/
theorem keeps_executePendingSignals_holdings (hI : HoldingsOnly I) {tradingDate : ℤ}
    (hsignal : ∀ signal, Keeps I (executeSignal B config tradingDate signal)) :
    Keeps I (executePendingSignals B config tradingDate) :=
  keeps_bind keeps_get fun _ => keeps_bind (keeps_modify fun w h => hI w _ _ rfl rfl h) fun _ =>
    keeps_forM fun signal _ => hsignal signal

/-! ## What an exit and an entry do -/

/-- What a completed exit has done: the broker has sold the position at the close, and the engine has
moved it to the closed positions and recorded the trade. -/
structure Exited (symbol : String) (tradingDate : ℤ) (pos : PositionRecord) (close : Decimal)
    (order : OrderRequest) (r : OrderResult) (w w' : Backtest) : Prop where
  held : w.engine.positions.get? symbol = some pos
  closePrice : B.loader.getClosePrice symbol tradingDate = some close
  request : order.symbol = symbol ∧ order.side = .sell ∧ order.quantity = pos.quantity
  booked : ∃ d, SimulatedBroker.Booked order w.broker w'.broker d close r.commission
  sameDate : w'.broker.currentDate = w.broker.currentDate
  positions : w'.engine.positions = w.engine.positions.erase symbol
  closed : ∃ c : PositionRecord,
    c.realizedPnl = some ((close - pos.avgCost) * pos.quantity - r.commission) ∧
    w'.engine.closedPositions = w.engine.closedPositions ++ [c]
  trades : ∃ t : BacktestTradeRecord, t.side = .sell ∧ w'.engine.trades = w.engine.trades ++ [t]

/-- An exit does nothing, or closes the position, or raises. -/
theorem executeExit_spec (symbol : String) (tradingDate : ℤ) (exitReason : String) (w : Backtest) :
    wp (executeExit B symbol tradingDate exitReason)
      (fun _ w' => w' = w ∨ ∃ pos close order r, Exited B symbol tradingDate pos close order r w w')
      (fun _ _ => True) w := by
  unfold executeExit
  rw [wp_bind, wp_get]
  cases hpos : w.engine.positions.get? symbol with
  | none => exact .inl rfl
  | some pos =>
    cases hclose : B.loader.getClosePrice symbol tradingDate with
    | none => exact .inl rfl
    | some close =>
      dsimp only
      cases hmake : OrderRequest.make? symbol .sell .limit pos.quantity (some close)
          ("backtest_exit_" ++ exitReason) with
      | none => trivial
      | some order =>
        obtain ⟨hsym, hside, htype, hqty, hprice⟩ := make?_eq_some hmake
        dsimp only
        rw [wp_bind, wp_onBroker]
        refine wp_mono (SimulatedBroker.placeOrder_spec B.loader B.brokerConfig order w.broker) ?_
          (fun _ _ _ => trivial)
        rintro r b' ⟨d, base, hf⟩
        have hbase : base = close := by
          have := hf.basePrice; rw [htype, hprice] at this; exact (Option.some.inj this).symm
        have hfill : SimulatedBroker.fillPrice B.brokerConfig order base = close := by
          unfold SimulatedBroker.fillPrice; rw [htype, hbase]
        have hbooked := hf.booked
        rw [hfill] at hbooked
        rw [wp_bind, wp_modifyEngine]
        dsimp only
        cases ExitReason.ofValue? exitReason with
        | none => trivial
        | some reason =>
          exact .inr ⟨pos, close, order, r, hpos, hclose, ⟨hsym, hside, hqty⟩, ⟨d, hbooked⟩, hf.sameDate,
            rfl, ⟨_, rfl, rfl⟩, ⟨_, rfl, rfl⟩⟩

/-- What a completed entry has done: the broker has bought at the slipped open price, and the engine
holds the position and has recorded the trade. -/
structure Entered (signal : Signal) (tradingDate : ℤ) (openPrice : Decimal) (qty : ℤ)
    (order : OrderRequest) (r : OrderResult) (w w' : Backtest) : Prop where
  action : signal.action = .buy
  unheld : w.engine.positions.get? signal.symbol = none
  hasOpen : B.loader.getOpenPrice signal.symbol tradingDate = some openPrice
  risk : riskCheck B w signal.symbol signal.quantity openPrice = some qty
  request : order.symbol = signal.symbol ∧ order.side = .buy ∧ order.quantity = qty
  filled : r.filledPrice = some (SimulatedBroker.calculateSlippage B.brokerConfig .buy openPrice)
  booked : SimulatedBroker.Booked order w.broker w'.broker tradingDate
    (SimulatedBroker.calculateSlippage B.brokerConfig .buy openPrice) r.commission
  sameDate : w'.broker.currentDate = w.broker.currentDate
  positions : ∃ pos : PositionRecord, pos.symbol = signal.symbol ∧ pos.quantity = qty ∧
    pos.avgCost = fillPriceOf r openPrice ∧
    w'.engine.positions = w.engine.positions.set signal.symbol pos
  closed : w'.engine.closedPositions = w.engine.closedPositions
  trades : ∃ t : BacktestTradeRecord, t.side = .buy ∧ t.commission = r.commission ∧
    w'.engine.trades = w.engine.trades ++ [t]

/-- A signal does nothing, or is bought, or raises. -/
theorem executeSignal_spec {w : Backtest} {tradingDate : ℤ} (hdate : w.broker.currentDate = some tradingDate)
    (signal : Signal) :
    wp (executeSignal B config tradingDate signal)
      (fun _ w' => w' = w ∨ ∃ openPrice qty order r, Entered B signal tradingDate openPrice qty order r w w')
      (fun _ _ => True) w := by
  unfold executeSignal
  rw [wp_ite]
  split
  · exact .inl rfl
  rename_i haction
  rw [wp_bind, wp_get, wp_ite]
  split
  · exact .inl rfl
  rename_i hheld
  have hheld' : w.engine.positions.get? signal.symbol = none := by
    rw [← Dict.contains_eq_false_iff]; exact Bool.eq_false_iff.2 hheld
  cases hopen : B.loader.getOpenPrice signal.symbol tradingDate with
  | none => exact .inl rfl
  | some openPrice =>
    dsimp only
    rw [wp_bind, wp_get]
    cases hrisk : riskCheck B w signal.symbol signal.quantity openPrice with
    | none => exact .inl rfl
    | some qty =>
      dsimp only
      cases hmake : OrderRequest.make? signal.symbol .buy .market qty none "backtest_entry" with
      | none => trivial
      | some order =>
        obtain ⟨hsym, hside, htype, hqty, -⟩ := make?_eq_some hmake
        dsimp only
        rw [wp_bind, wp_tryCatch, wp_map, wp_onBroker]
        refine wp_mono (SimulatedBroker.placeOrder_spec B.loader B.brokerConfig order w.broker) ?_ ?_
        · rintro r b' ⟨d, base, hf⟩
          -- a market order of the day fills at its open, moved by the slippage
          have hd : d = tradingDate := Option.some.inj (hf.date.symm.trans hdate)
          have hbase := hf.basePrice
          rw [htype, hsym, hd, hopen] at hbase
          cases hbase
          have hfill : SimulatedBroker.fillPrice B.brokerConfig order openPrice =
              SimulatedBroker.calculateSlippage B.brokerConfig .buy openPrice := by
            unfold SimulatedBroker.fillPrice; rw [htype, hside]
          have hfilled := hf.filledPrice
          have hbooked := hf.booked
          rw [hfill] at hfilled hbooked
          rw [hd] at hbooked
          unfold recordEntry
          dsimp only
          rw [wp_bind]
          refine wp_mono (keeps_entryLimits (I := (· = { w with broker := b' })) config _ rfl) ?_
            (fun _ _ _ => trivial)
          rintro limits _ rfl
          exact .inr ⟨openPrice, qty, order, r, not_not.1 haction, hheld', hopen, hrisk, ⟨hsym, hside, hqty⟩,
            hfilled, hbooked, hf.sameDate, ⟨_, rfl, rfl, rfl, rfl⟩, rfl, ⟨_, rfl, rfl, rfl⟩⟩
        -- a rejected order leaves the broker as it was
        · rintro e _ rfl
          exact .inl rfl

/-- The broker's date survives every order. -/
theorem date_orderStable (date : Option ℤ) (side : OrderSide) :
    OrderStable B side (fun w => w.broker.currentDate = date) :=
  fun _ _ _ _ _ _ _ h hf => hf.sameDate.trans h

theorem date_pendingOnly (date : Option ℤ) : PendingOnly (fun w => w.broker.currentDate = date) :=
  fun _ _ _ h => h

/-! ## Steps in a row -/

/-- The steps of a day before its snapshot. -/
def tradingSteps (tradingDate : ℤ) : List (M PUnit) :=
  [startDay B tradingDate, checkExits B config tradingDate, executePendingSignals B config tradingDate,
   generateSignals B config tradingDate]

theorem daySteps_eq (tradingDate : ℤ) :
    daySteps B config tradingDate = tradingSteps B config tradingDate ++ [recordSnapshot B tradingDate] := rfl

theorem runAll_cons (x : M PUnit) (xs : List (M PUnit)) : runAll (x :: xs) = x >>= fun _ => runAll xs := by
  unfold runAll
  rw [List.forM_eq_forM, List.forM_cons]; rfl

theorem runAll_append (xs ys : List (M PUnit)) : runAll (xs ++ ys) = runAll xs >>= fun _ => runAll ys := by
  unfold runAll
  rw [List.forM_eq_forM, List.forM_append]

theorem wp_runAll_cons (x : M PUnit) (xs : List (M PUnit)) {Q : PUnit → Backtest → Prop}
    {R : Exn → Backtest → Prop} {w : Backtest} :
    wp (runAll (x :: xs)) Q R w = wp x (fun _ w' => wp (runAll xs) Q R w') R w := by
  rw [runAll_cons, wp_bind]

theorem wp_runAll_append (xs ys : List (M PUnit)) {Q : PUnit → Backtest → Prop}
    {R : Exn → Backtest → Prop} {w : Backtest} :
    wp (runAll (xs ++ ys)) Q R w = wp (runAll xs) (fun _ w' => wp (runAll ys) Q R w') R w := by
  rw [runAll_append, wp_bind]

/-! ## Where a run ends -/

/-- The state that a run leaves, whether it completes or raises. -/
def left {α : Type} : EStateM.Result Exn Backtest α → Backtest
  | .ok _ w | .error _ w => w

theorem left_of_wp {α : Type} {x : M α} {w : Backtest} (h : wp x (fun _ w' => I w') (fun _ w' => I w') w) :
    I (left (x w)) := by
  unfold wp at h
  cases hrun : x w with
  | ok a w' => rw [hrun] at h; exact h
  | error e w' => rw [hrun] at h; exact h

/-- A run that completes ends in the state it leaves. -/
theorem eq_ok_left {α : Type} {r : EStateM.Result Exn Backtest α} {a : α}
    (h : (match r with | .ok b _ => some b | .error _ _ => none) = some a) : r = .ok a (left r) := by
  cases r with
  | ok b w => cases h; rfl
  | error e w => cases h

/-- A run always ends with a result. -/
theorem run_returns (w : Backtest) : ∃ r w', run B config w = .ok r w' := by
  have h : wp (run B config) (fun _ _ => True) (fun _ _ => False) w := by
    unfold run
    rw [wp_tryCatch]
    exact wp_mono (wp_true _ w) (fun _ _ _ => trivial) (fun _ _ _ => trivial)
  unfold wp at h
  cases hr : run B config w with
  | ok r w' => exact ⟨r, w', rfl⟩
  | error e w' => rw [hr] at h; cases h

end BacktestEngine

end TradingAgent
