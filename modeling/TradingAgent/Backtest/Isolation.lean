/-
Runs one after another on the same engine and broker. A run resets the engine but not the broker, so
it goes like the run of a fresh engine when the broker it starts on has the initial capital in cash
and no open position; what else an earlier run left in the broker (closed entries, orders, the order
counter, the realized result, the date) is never read. The proof compares the two runs step by step
under the relation that forgets exactly these fields.
-/
import TradingAgent.Report.Metrics
import TradingAgent.Backtest.Frame
import TradingAgent.Lib.Related

namespace TradingAgent

open Wp

namespace SimulatedBroker

/-- Two brokers with the same cash and the same open position in every symbol. -/
structure SameHoldings (b b' : SimulatedBroker) : Prop where
  cash : b.cash = b'.cash
  openPosition : ∀ symbol, b.openPosition symbol = b'.openPosition symbol

/-- Two brokers with the same date and holdings: no later order tells them apart. -/
structure Interchangeable (b b' : SimulatedBroker) : Prop extends SameHoldings b b' where
  date : b.currentDate = b'.currentDate

theorem SameHoldings.totalValue {b b' : SimulatedBroker} (h : SameHoldings b b') :
    b.getTotalValue = b'.getTotalValue := by
  have hval : ∀ (b : SimulatedBroker) (symbol : String),
      (b.positions.get? symbol).elim 0 (fun p => if p.quantity > 0 then p.marketValue else 0) =
        (b.openPosition symbol).elim 0 (·.marketValue) := by
    intro b symbol
    unfold SimulatedBroker.openPosition
    cases b.positions.get? symbol with
    | none => rfl
    | some p =>
      simp only [Option.elim_some, Option.filter_some, decide_eq_true_eq]
      split <;> rfl
  rw [getTotalValue_eq_sum, getTotalValue_eq_sum, h.cash]
  congr 1
  refine Dict.sum_congr _ _ _ _ fun symbol => ?_
  rw [hval, hval, h.openPosition]

theorem boughtPosition_congr {held held' : Option Position} (order : OrderRequest) (price : Decimal)
    (d : ℤ) (h : held.filter (fun p => p.quantity > 0) = held'.filter (fun p => p.quantity > 0)) :
    boughtPosition held order price d = boughtPosition held' order price d := by
  unfold boughtPosition; rw [h]

/-- Writing the same position keeps the open positions the same. -/
theorem openPosition_set_congr {b b' c c' : SimulatedBroker} {symbol : String} {p : Position}
    (h : ∀ s, b.openPosition s = b'.openPosition s) (hc : c.positions = b.positions.set symbol p)
    (hc' : c'.positions = b'.positions.set symbol p) (s : String) :
    c.openPosition s = c'.openPosition s := by
  rw [openPosition_of_set hc, openPosition_of_set hc', h s]

/-! ## Orders on interchangeable brokers -/

variable (L : HistoricalDataLoader) (cfg : BrokerConfig)

theorem related_ensureDateSet : Related Interchangeable Eq ensureDateSet ensureDateSet := by
  unfold ensureDateSet
  refine related_bind related_get fun b b' h => ?_
  rw [h.date]
  split
  · exact related_throw _
  · exact related_pure rfl

theorem related_getFillPrice (order : OrderRequest) (d : ℤ) :
    Related Interchangeable Eq (getFillPrice L order d) (getFillPrice L order d) := by
  unfold getFillPrice
  split
  · split
    · exact related_throw _
    · exact related_pure rfl
  · split
    · exact related_throw _
    · exact related_pure rfl

theorem related_executeOrder (order : OrderRequest) (price fee : Decimal) (d : ℤ) :
    Related Interchangeable (fun _ _ => True) (executeOrder order price fee d)
      (executeOrder order price fee d) := by
  unfold executeOrder
  cases order.side with
  | buy =>
    unfold executeBuy
    refine related_bind related_get fun b b' h => ?_
    rw [h.cash]
    split
    · exact related_throw _
    · refine related_modify fun s t hs => ⟨⟨?_, ?_⟩, hs.date⟩
      · dsimp only; rw [hs.cash]
      · have hp := boughtPosition_congr order price d (hs.openPosition order.symbol)
        exact openPosition_set_congr hs.openPosition rfl (by rw [hp])
  | sell =>
    unfold executeSell
    refine related_bind related_get fun b b' h => ?_
    have hp : (b.positions.get? order.symbol).filter (fun p => p.quantity > 0) =
        (b'.positions.get? order.symbol).filter (fun p => p.quantity > 0) := h.openPosition order.symbol
    rw [hp]
    split
    · exact related_throw _
    · split
      · exact related_throw _
      · refine related_modify fun s t hs => ⟨⟨?_, ?_⟩, hs.date⟩
        · dsimp only; rw [hs.cash]
        · exact openPosition_set_congr hs.openPosition rfl rfl

/-- An order ends alike on interchangeable brokers, up to the order's id. -/
theorem related_placeOrder (order : OrderRequest) :
    Related Interchangeable (fun r r' => r.filledPrice = r'.filledPrice ∧ r.commission = r'.commission)
      (placeOrder L cfg order) (placeOrder L cfg order) := by
  have hframe : ∀ {b b' c c' : SimulatedBroker}, Interchangeable b b' → c.cash = b.cash →
      c.positions = b.positions → c.currentDate = b.currentDate → c'.cash = b'.cash →
      c'.positions = b'.positions → c'.currentDate = b'.currentDate → Interchangeable c c' := by
    intro b b' c c' h h1 h2 h3 h4 h5 h6
    refine ⟨⟨by rw [h1, h4, h.cash], fun s => ?_⟩, by rw [h3, h6, h.date]⟩
    unfold SimulatedBroker.openPosition
    rw [h2, h5]; exact h.openPosition s
  unfold placeOrder
  refine related_bind related_ensureDateSet ?_
  rintro d _ rfl
  refine related_bind (related_getFillPrice L order d) ?_
  rintro base _ rfl
  refine related_bind (related_executeOrder order _ _ d) fun _ _ _ => ?_
  refine related_bind (related_modify fun s t hs => hframe hs rfl rfl rfl rfl rfl rfl) fun _ _ _ => ?_
  refine related_bind related_get fun b b' h => ?_
  refine related_bind (related_modify fun s t hs => hframe hs rfl rfl rfl rfl rfl rfl) fun _ _ _ => ?_
  exact related_pure ⟨rfl, rfl⟩

end SimulatedBroker

namespace BacktestEngine

/-! ## Backtests with interchangeable brokers -/

/-- The same engine on interchangeable brokers. -/
structure Twin (w w' : Backtest) : Prop where
  engine : w.engine = w'.engine
  broker : SimulatedBroker.Interchangeable w.broker w'.broker

theorem related_onBroker {α β : Type} {V : α → β → Prop} {x : SimulatedBroker.M α} {y : SimulatedBroker.M β}
    (h : Related SimulatedBroker.Interchangeable V x y) : Related Twin V (onBroker x) (onBroker y) := by
  rintro ⟨e, b⟩ ⟨_, b'⟩ ⟨rfl, hb⟩
  have hr := h b b' hb
  unfold onBroker
  dsimp only
  cases hx : x b with
  | ok a c =>
    rw [hx] at hr
    obtain ⟨a', c', hy, hv, hc⟩ := hr.of_ok
    rw [hy]
    exact ⟨hv, rfl, hc⟩
  | error exn c =>
    cases hy : y b' with
    | ok a' c' => rw [hx, hy] at hr; cases hr
    | error exn' c' => rw [hx, hy] at hr; exact ⟨hr.1, rfl, hr.2⟩

theorem related_modifyEngine (f : BacktestEngine → BacktestEngine) :
    Related Twin (fun _ _ => True) (modifyEngine f) (modifyEngine f) :=
  related_modify fun _ _ hs => ⟨congrArg f hs.engine, hs.broker⟩

theorem related_liftExcept {α : Type} (x : Except Exn α) : Related Twin Eq (liftExcept x) (liftExcept x) := by
  cases x with
  | ok a => exact related_pure rfl
  | error e => exact related_throw e

theorem related_orRaise {α : Type} (o : Option α) : Related Twin Eq (orRaise o) (orRaise o) := by
  cases o with
  | none => exact related_throw _
  | some a => exact related_pure rfl

theorem related_last (xs : List (Option ℚ)) : Related Twin Eq (last xs) (last xs) := by
  unfold last
  split
  · exact related_pure rfl
  · exact related_throw _

theorem related_lastTwo (xs : List (Option ℚ)) : Related Twin Eq (lastTwo xs) (lastTwo xs) := by
  unfold lastTwo
  split
  · exact related_pure rfl
  · exact related_throw _

/-- The continuation of a program that returns the same value on both sides. -/
theorem related_bind_eq {α β γ : Type} {W : β → γ → Prop} {x y : M α} {f : α → M β} {g : α → M γ}
    (hx : Related Twin Eq x y) (hf : ∀ a, Related Twin W (f a) (g a)) :
    Related Twin W (x >>= f) (y >>= g) := by
  refine related_bind hx ?_
  rintro a _ rfl
  exact hf a

/-- The continuation of a program whose value is not used. -/
theorem related_then {β γ : Type} {W : β → γ → Prop} {x y : M PUnit} {f : PUnit → M β} {g : PUnit → M γ}
    (hx : Related Twin (fun _ _ => True) x y) (hf : Related Twin W (f ⟨⟩) (g ⟨⟩)) :
    Related Twin W (x >>= f) (y >>= g) := related_bind hx fun _ _ _ => hf

variable (B : Bench) (config : BacktestConfig)

theorem Twin.riskCheck {w w' : Backtest} (h : Twin w w') (symbol : String) (quantity : ℤ) (price : Decimal) :
    riskCheck B w symbol quantity price = riskCheck B w' symbol quantity price := by
  unfold BacktestEngine.riskCheck
  rw [h.engine, h.broker.totalValue, h.broker.cash]

theorem Twin.isTaken {w w' : Backtest} (h : Twin w w') (symbol : String) :
    isTaken w symbol = isTaken w' symbol := by
  unfold BacktestEngine.isTaken; rw [h.engine]

/-! ## Exits -/

theorem related_executeExit (symbol : String) (tradingDate : ℤ) (exitReason : String) :
    Related Twin (fun _ _ => True) (executeExit B symbol tradingDate exitReason)
      (executeExit B symbol tradingDate exitReason) := by
  unfold executeExit
  refine related_bind related_get fun w w' h => ?_
  rw [h.engine]
  split
  · exact related_pure trivial
  split
  · exact related_pure trivial
  split
  · exact related_throw _
  rename_i order _
  refine related_bind (related_onBroker (SimulatedBroker.related_placeOrder _ _ order)) fun r r' hr => ?_
  dsimp only
  rw [hr.2]
  refine related_then (related_modifyEngine _) ?_
  split
  · exact related_throw _
  · exact related_modifyEngine _

theorem related_collectExits (tradingDate : ℤ) : ∀ items : List (String × PositionRecord),
    Related Twin Eq (collectExits B config tradingDate items) (collectExits B config tradingDate items)
  | [] => related_pure rfl
  | (symbol, pos) :: items => by
    have hcheck : Related Twin Eq (checkExit B config tradingDate symbol pos)
        (checkExit B config tradingDate symbol pos) := by
      unfold checkExit
      split
      · exact related_pure rfl
      split
      · exact related_throw _
      refine related_bind related_get fun w w' h => ?_
      rw [h.engine]
      refine related_then (related_modifyEngine _) ?_
      exact related_bind_eq (related_liftExcept _) fun _ => related_pure rfl
    exact related_bind_eq hcheck fun _ => related_bind_eq (related_collectExits tradingDate items) fun _ =>
      related_pure rfl

theorem related_checkExits (tradingDate : ℤ) :
    Related Twin (fun _ _ => True) (checkExits B config tradingDate) (checkExits B config tradingDate) := by
  unfold checkExits
  refine related_bind related_get fun w w' h => ?_
  rw [h.engine]
  exact related_bind_eq (related_collectExits B config tradingDate _) fun found =>
    related_forM fun e _ => related_executeExit B e.1 tradingDate e.2

/-! ## Entries -/

theorem related_entryLimits : Related Twin Eq (entryLimits config) (entryLimits config) := by
  unfold entryLimits
  cases config.strategyType with
  | position =>
    exact related_bind_eq (related_orRaise _) fun _ => related_bind_eq (related_orRaise _) fun _ =>
      related_pure rfl
  | swing => exact related_bind_eq (related_orRaise _) fun _ => related_pure rfl

/-- What a filled order reports to the engine: its price and commission. -/
def SameFill (r r' : OrderResult) : Prop := r.filledPrice = r'.filledPrice ∧ r.commission = r'.commission

theorem related_recordEntry (signal : Signal) (tradingDate : ℤ) (adjustedQty : ℤ) (openPrice : Decimal)
    {r r' : OrderResult} (h : SameFill r r') :
    Related Twin (fun _ _ => True) (recordEntry config signal tradingDate adjustedQty openPrice r)
      (recordEntry config signal tradingDate adjustedQty openPrice r') := by
  unfold recordEntry fillPriceOf
  rw [h.1, h.2]
  exact related_bind_eq (related_entryLimits config) fun _ => related_modifyEngine _

theorem related_executeSignal (tradingDate : ℤ) (signal : Signal) :
    Related Twin (fun _ _ => True) (executeSignal B config tradingDate signal)
      (executeSignal B config tradingDate signal) := by
  unfold executeSignal
  split
  · exact related_pure trivial
  refine related_bind related_get fun w w' h => ?_
  rw [h.engine]
  split
  · exact related_pure trivial
  split
  · exact related_pure trivial
  refine related_bind related_get fun w w' h => ?_
  rw [h.riskCheck]
  split
  · exact related_pure trivial
  split
  · exact related_throw _
  rename_i order _
  -- a rejected order counts as none placed, on both sides
  have hplaced : Related Twin (Option.Rel SameFill)
      (tryCatch (some <$> onBroker (SimulatedBroker.placeOrder B.loader B.brokerConfig order)) fun _ => pure none)
      (tryCatch (some <$> onBroker (SimulatedBroker.placeOrder B.loader B.brokerConfig order)) fun _ => pure none) :=
    related_tryCatch
      (related_map (related_onBroker (SimulatedBroker.related_placeOrder _ _ order)) fun _ _ h => .some h)
      fun _ => related_pure .none
  refine related_bind hplaced fun r r' hr => ?_
  cases hr with
  | none => exact related_pure trivial
  | some hr => exact related_recordEntry config signal tradingDate _ _ hr

theorem related_executePendingSignals (tradingDate : ℤ) :
    Related Twin (fun _ _ => True) (executePendingSignals B config tradingDate)
      (executePendingSignals B config tradingDate) := by
  unfold executePendingSignals
  refine related_bind related_get fun w w' h => ?_
  rw [h.engine]
  exact related_then (related_modifyEngine _) (related_forM fun s _ => related_executeSignal B config tradingDate s)

/-! ## Signals -/

theorem related_sizeAndAppend (symbol : String) (entryPrice : Decimal) (slTp : Decimal × Decimal)
    (totalValue confidence : Decimal) (reasoning : SignalReason) :
    Related Twin (fun _ _ => True)
      (sizeAndAppend B symbol entryPrice slTp totalValue confidence reasoning)
      (sizeAndAppend B symbol entryPrice slTp totalValue confidence reasoning) := by
  unfold sizeAndAppend
  refine related_bind_eq (related_liftExcept _) fun sizing => ?_
  split
  · exact related_pure trivial
  · exact related_modifyEngine _

theorem related_tryPositionSignal (tradingDate : ℤ) (smaShort smaLong : ℤ) (rsiThreshold : ℚ)
    (atrStopMult atrTpMult totalValue : Decimal) (symbol : String) :
    Related Twin (fun _ _ => True)
      (tryPositionSignal B tradingDate smaShort smaLong rsiThreshold atrStopMult atrTpMult totalValue symbol)
      (tryPositionSignal B tradingDate smaShort smaLong rsiThreshold atrStopMult atrTpMult totalValue symbol) := by
  unfold tryPositionSignal
  refine related_bind related_get fun w w' h => ?_
  rw [h.isTaken]
  split
  · exact related_pure trivial
  dsimp only
  split
  · exact related_pure trivial
  refine related_bind_eq (related_liftExcept _) fun _ => related_bind_eq (related_last _) fun _ => ?_
  refine related_bind_eq (related_liftExcept _) fun _ => related_bind_eq (related_last _) fun _ => ?_
  refine related_bind_eq (related_liftExcept _) fun _ => related_bind_eq (related_last _) fun _ => ?_
  refine related_bind_eq (related_liftExcept _) fun _ => related_bind_eq (related_last _) fun _ => ?_
  split
  · split
    · split
      · exact related_pure trivial
      · exact related_bind_eq (related_liftExcept _) fun _ => related_sizeAndAppend B _ _ _ _ _ _
    · exact related_pure trivial
  · exact related_pure trivial

theorem related_trySwingSignal (tradingDate : ℤ) (stopPct tpPct : Decimal) (minSignals : ℤ)
    (totalValue : Decimal) (symbol : String) :
    Related Twin (fun _ _ => True) (trySwingSignal B tradingDate stopPct tpPct minSignals totalValue symbol)
      (trySwingSignal B tradingDate stopPct tpPct minSignals totalValue symbol) := by
  unfold trySwingSignal
  refine related_bind related_get fun w w' h => ?_
  rw [h.isTaken]
  split
  · exact related_pure trivial
  dsimp only
  split
  · exact related_pure trivial
  refine related_bind_eq (related_liftExcept _) fun _ => related_bind_eq (related_liftExcept _) fun _ => ?_
  refine related_bind_eq (related_liftExcept _) fun _ => ?_
  split
  · exact related_pure trivial
  refine related_bind_eq (related_lastTwo _) fun _ => related_bind_eq (related_lastTwo _) fun _ => ?_
  refine related_bind_eq (related_lastTwo _) fun _ => related_bind_eq (related_lastTwo _) fun _ => ?_
  refine related_bind_eq (related_lastTwo _) fun _ => ?_
  split
  · split
    · exact related_pure trivial
    · split
      · exact related_pure trivial
      · exact related_bind_eq (related_liftExcept _) fun _ => related_sizeAndAppend B _ _ _ _ _ _
  · exact related_pure trivial

theorem related_replayExitPrices (symbol : String) (tradingDate : ℤ) (currentPrice : Decimal) :
    Related Twin Eq (replayExitPrices B config symbol tradingDate currentPrice)
      (replayExitPrices B config symbol tradingDate currentPrice) := by
  have hatr : Related Twin Eq (computeAtr B symbol tradingDate) (computeAtr B symbol tradingDate) := by
    unfold computeAtr
    dsimp only
    split
    · exact related_pure rfl
    · exact related_bind_eq (related_liftExcept _) fun _ => related_bind_eq (related_last _) fun _ =>
        related_pure rfl
  have hsome : ∀ x : Except Exn (Decimal × Decimal),
      Related Twin Eq (some <$> liftExcept x) (some <$> liftExcept x) :=
    fun x => related_map (related_liftExcept x) fun _ _ h => congrArg some h
  unfold replayExitPrices
  cases config.strategyType with
  | position =>
    refine related_bind_eq hatr fun atr => ?_
    cases atr with
    | none => exact related_pure rfl
    | some atr =>
      exact related_bind_eq (related_orRaise _) fun _ => related_bind_eq (related_orRaise _) fun _ => hsome _
  | swing =>
    exact related_bind_eq (related_orRaise _) fun _ => related_bind_eq (related_orRaise _) fun _ => hsome _

theorem related_tryReplaySignal (tradingDate : ℤ) (totalValue : Decimal) (symbol : String) :
    Related Twin (fun _ _ => True) (tryReplaySignal B config tradingDate totalValue symbol)
      (tryReplaySignal B config tradingDate totalValue symbol) := by
  unfold tryReplaySignal
  refine related_bind related_get fun w w' h => ?_
  rw [h.isTaken]
  split
  · exact related_pure trivial
  refine related_bind related_get fun w w' h => ?_
  rw [h.engine]
  split
  · exact related_throw _
  split
  · exact related_pure trivial
  split
  · exact related_pure trivial
  split
  · exact related_pure trivial
  split
  · exact related_pure trivial
  refine related_bind_eq (related_replayExitPrices B config _ _ _) fun slTp => ?_
  cases slTp with
  | none => exact related_pure trivial
  | some slTp => exact related_sizeAndAppend B _ _ _ _ _ _

/-- A loop over the symbols in which a failing symbol is skipped. -/
theorem related_symbols {f : String → M PUnit} (symbols : List String)
    (h : ∀ symbol, Related Twin (fun _ _ => True) (f symbol) (f symbol)) :
    Related Twin (fun _ _ => True) (symbols.forM fun symbol => tryCatch (f symbol) fun _ => pure ⟨⟩)
      (symbols.forM fun symbol => tryCatch (f symbol) fun _ => pure ⟨⟩) :=
  related_forM fun symbol _ => related_tryCatch (h symbol) fun _ => related_pure trivial

theorem related_generateSignals (tradingDate : ℤ) :
    Related Twin (fun _ _ => True) (generateSignals B config tradingDate)
      (generateSignals B config tradingDate) := by
  have hpos : Related Twin (fun _ _ => True) (generatePositionSignals B config tradingDate)
      (generatePositionSignals B config tradingDate) := by
    unfold generatePositionSignals
    refine related_bind_eq (related_orRaise _) fun _ => related_bind_eq (related_orRaise _) fun _ => ?_
    refine related_bind_eq (related_orRaise _) fun _ => related_bind_eq (related_orRaise _) fun _ => ?_
    refine related_bind_eq (related_orRaise _) fun _ => related_bind related_get fun w w' h => ?_
    rw [h.broker.totalValue]
    exact related_symbols _ fun _ => related_tryPositionSignal B _ _ _ _ _ _ _ _
  have hswing : Related Twin (fun _ _ => True) (generateSwingSignals B config tradingDate)
      (generateSwingSignals B config tradingDate) := by
    unfold generateSwingSignals
    refine related_bind_eq (related_orRaise _) fun _ => related_bind_eq (related_orRaise _) fun _ => ?_
    refine related_bind_eq (related_orRaise _) fun _ => related_bind related_get fun w w' h => ?_
    rw [h.broker.totalValue]
    exact related_symbols _ fun _ => related_trySwingSignal B _ _ _ _ _ _
  have hreplay : Related Twin (fun _ _ => True) (generateReplaySignals B config tradingDate)
      (generateReplaySignals B config tradingDate) := by
    unfold generateReplaySignals
    refine related_bind related_get fun w w' h => ?_
    rw [h.engine]
    split
    · exact related_throw _
    · refine related_bind related_get fun w w' h => ?_
      rw [h.broker.totalValue]
      exact related_symbols _ fun _ => related_tryReplaySignal B config _ _ _
  unfold generateSignals
  cases config.mode with
  | llmReplay => exact hreplay
  | technical =>
    cases config.strategyType with
    | position => exact hpos
    | swing => exact hswing
  | llmLive =>
    cases config.strategyType with
    | position => exact hpos
    | swing => exact hswing

/-! ## Snapshots and the end of the run -/

theorem related_recordSnapshot (tradingDate : ℤ) :
    Related Twin (fun _ _ => True) (recordSnapshot B tradingDate) (recordSnapshot B tradingDate) := by
  unfold recordSnapshot unrealizedPnl
  refine related_bind related_get fun w w' h => ?_
  rw [h.engine, h.broker.totalValue, h.broker.cash]
  exact related_modifyEngine _

theorem related_finish (lastDate : ℤ) :
    Related Twin Eq (finish B config lastDate) (finish B config lastDate) := by
  have hforce : Related Twin (fun _ _ => True) (forceCloseAll B lastDate) (forceCloseAll B lastDate) := by
    unfold forceCloseAll
    refine related_bind related_get fun w w' h => ?_
    rw [h.engine]
    exact related_forM fun symbol _ => related_executeExit B symbol lastDate "backtest_end"
  have hmetrics : Related Twin Eq (calculateMetrics B config) (calculateMetrics B config) := by
    unfold calculateMetrics
    refine related_bind related_get fun w w' h => ?_
    rw [h.engine]
    dsimp only
    split
    · exact related_pure rfl
    · exact related_map (related_liftExcept _) fun _ _ h => congrArg some h
  unfold finish
  refine related_bind related_get fun w w' h => ?_
  rw [h.engine]
  split
  · refine related_then hforce (related_bind_eq hmetrics fun _ => related_bind related_get fun w w' h => ?_)
    rw [h.engine]
    exact related_pure rfl
  · refine related_bind_eq hmetrics fun _ => related_bind related_get fun w w' h => ?_
    rw [h.engine]
    exact related_pure rfl

/-! ## A run on another broker -/

/-- The same engine on brokers with the same holdings, whatever their dates. -/
structure SameBooks (w w' : Backtest) : Prop where
  engine : w.engine = w'.engine
  holdings : SimulatedBroker.SameHoldings w.broker w'.broker

theorem Twin.sameBooks {w w' : Backtest} (h : Twin w w') : SameBooks w w' := ⟨h.engine, h.broker.toSameHoldings⟩

/-- The same engine. -/
def SameEngine (w w' : Backtest) : Prop := w.engine = w'.engine

/-- Starting a day gives both brokers its date. -/
theorem corresponds_startDay {w w' : Backtest} (h : SameBooks w w') (tradingDate : ℤ) :
    Corresponds Twin (fun _ _ => True) (startDay B tradingDate w) (startDay B tradingDate w') := by
  refine ⟨trivial, ?_, ⟨h.holdings.cash, fun symbol => ?_⟩, rfl⟩
  · show ({ w.engine with dailyTradeCount := 0, dailyRealizedPnl := 0 } : BacktestEngine) = _
    rw [h.engine]
  · have hrev : ∀ b : SimulatedBroker, ({ b with
        currentDate := some tradingDate
        positions := b.positions.mapValues (SimulatedBroker.revalue B.loader tradingDate) } :
        SimulatedBroker).openPosition symbol =
          (b.openPosition symbol).map (SimulatedBroker.revalue B.loader tradingDate symbol) :=
      fun b => SimulatedBroker.openPosition_revalued B.loader rfl symbol
    exact (hrev w.broker).trans ((congrArg _ (h.holdings.openPosition symbol)).trans (hrev w'.broker).symm)

theorem corresponds_day {w w' : Backtest} (h : SameBooks w w') (tradingDate : ℤ) :
    Corresponds Twin (fun _ _ => True) (runAll (daySteps B config tradingDate) w)
      (runAll (daySteps B config tradingDate) w') := by
  unfold daySteps
  rw [runAll_cons]
  refine corresponds_bind (corresponds_startDay B h tradingDate) (fun _ _ h => h) fun _ _ _ s t hs => ?_
  rw [runAll_cons, runAll_cons, runAll_cons, runAll_cons]
  refine related_then (related_checkExits B config tradingDate) ?_ s t hs
  refine related_then (related_executePendingSignals B config tradingDate) ?_
  refine related_then (related_generateSignals B config tradingDate) ?_
  exact related_then (related_recordSnapshot B tradingDate) (related_pure trivial)

theorem corresponds_days (d : ℤ) (ds : List ℤ) {w w' : Backtest} (h : SameBooks w w') :
    Corresponds Twin (fun _ _ => True) (runAll (loopSteps B config (d :: ds)) w)
      (runAll (loopSteps B config (d :: ds)) w') := by
  induction ds generalizing d w w' with
  | nil =>
    unfold loopSteps
    rw [List.flatMap_cons, List.flatMap_nil, List.append_nil]
    exact corresponds_day B config h d
  | cons d' ds ih =>
    have hcons : loopSteps B config (d :: d' :: ds) =
        daySteps B config d ++ loopSteps B config (d' :: ds) := rfl
    rw [hcons, runAll_append]
    exact corresponds_bind (corresponds_day B config h d) (fun _ _ h => h)
      fun _ _ _ s t hs => ih d' hs.sameBooks

theorem corresponds_prepare {R : Backtest → Backtest → Prop} {w w' : Backtest}
    (hR : ∀ e, R ⟨e, w.broker⟩ ⟨e, w'.broker⟩) :
    Corresponds R (fun _ _ => True) (prepare B config w) (prepare B config w') := by
  unfold prepare
  refine corresponds_bind (S := fun s t => R s t ∧ s.broker = w.broker ∧ t.broker = w'.broker ∧
      s.engine = t.engine) (V := fun _ _ => True) ⟨trivial, hR _, rfl, rfl, rfl⟩ (fun _ _ h => h.1) ?_
  rintro _ _ _ ⟨e, b⟩ ⟨_, b'⟩ ⟨hs, rfl, rfl, rfl⟩
  cases config.mode with
  | llmReplay =>
    cases B.sessionFactory with
    | none => exact ⟨rfl, hs⟩
    | some rows => exact ⟨trivial, hR _⟩
  | technical => exact ⟨trivial, hs⟩
  | llmLive => exact ⟨trivial, hs⟩

/-- Whether a run of the configuration gets to its loop over the trading days. -/
def Simulates : Prop :=
  tradingDates B config ≠ [] ∧ config.symbols ≠ [] ∧ (config.mode = .llmReplay → B.sessionFactory ≠ none)

/-- A run that gets to its loop depends on the broker's holdings only, any other run not even on these. -/
theorem corresponds_run {w w' : Backtest}
    (h : Simulates B config → SimulatedBroker.SameHoldings w.broker w'.broker) :
    Corresponds SameEngine Eq (run B config w) (run B config w') := by
  have hbody : Corresponds SameEngine Eq (runBody B config w) (runBody B config w') := by
    unfold runBody
    by_cases hmode : config.mode = .llmReplay ∧ B.sessionFactory = none
    · -- the replay without a session factory fails in both runs
      have hfail : ∀ w, prepare B config w = .error (.valueError "session_factory is required for LLM_REPLAY mode")
          { w with engine := { peakValue := config.initialCapital } } := by
        intro w
        unfold prepare
        rw [hmode.1, hmode.2]; rfl
      rw [bind_apply, bind_apply, hfail, hfail]
      exact ⟨rfl, rfl⟩
    have hprep : Corresponds SameEngine (fun _ _ => True) (prepare B config w) (prepare B config w') :=
      corresponds_prepare B config fun _ => rfl
    cases hdates : tradingDates B config with
    | nil => exact corresponds_bind hprep (fun _ _ h => h) fun _ _ _ s t hs => ⟨rfl, hs⟩
    | cons d ds =>
      rw [List.getLast?_cons]
      dsimp only
      by_cases hsym : config.symbols = []
      · rw [if_pos hsym]
        exact corresponds_bind hprep (fun _ _ h => h) fun _ _ _ s t hs => ⟨rfl, hs⟩
      · have hsim : Simulates B config :=
          ⟨by rw [hdates]; exact List.cons_ne_nil _ _, hsym, fun h1 h2 => hmode ⟨h1, h2⟩⟩
        rw [if_neg hsym]
        refine corresponds_bind (corresponds_prepare B config (R := SameBooks) fun e => ⟨rfl, h hsim⟩)
          (fun _ _ h => h.engine) fun _ _ _ s t hs => ?_
        exact corresponds_bind (corresponds_days B config d ds hs) (fun _ _ h => h.engine) fun _ _ _ s t hst =>
          (related_finish B config _ s t hst).mono (fun _ _ h => h.engine) fun _ _ h => h
  unfold run
  refine corresponds_tryCatch hbody (fun _ _ h => h) fun e s t hs => ?_
  have heq : s.engine = t.engine := hs
  refine ⟨?_, hs⟩
  rw [heq]

/-! ## Runs in a row -/

/-- The outcomes of running the configurations one after another on the same engine and broker. -/
def runs : List BacktestConfig → Backtest → List (Option (BacktestResult × BacktestEngine))
  | [], _ => []
  | config :: configs, w =>
    let r := run B config w
    outcome r :: match r with
      | .ok _ w' => runs configs w'
      | .error _ w' => runs configs w'

/-- A newly built engine and broker for a configuration. -/
def newBacktest : Backtest := ⟨{}, newBroker B config⟩

/-- A broker with the initial capital in cash and no open position. -/
def FreshStart (b : SimulatedBroker) : Prop :=
  b.cash = config.initialCapital ∧ ∀ symbol, b.openPosition symbol = none

/-- Along the runs from a state, each one that gets to its loop starts on a fresh broker. -/
def FreshStarts : List BacktestConfig → Backtest → Prop
  | [], _ => True
  | config :: configs, w => (Simulates B config → FreshStart config w.broker) ∧
    ∀ r w', run B config w = .ok r w' → FreshStarts configs w'

theorem outcome_run {w : Backtest} (h : Simulates B config → FreshStart config w.broker) :
    outcome (run B config w) = outcome (run B config (newBacktest B config)) := by
  have hc : Corresponds SameEngine Eq (run B config w) (run B config (newBacktest B config)) :=
    corresponds_run B config fun hs => ⟨(h hs).1, fun symbol => (h hs).2 symbol⟩
  obtain ⟨r, w₁, hr⟩ := run_returns B config w
  rw [hr] at hc ⊢
  obtain ⟨r', w₂, hr', rfl, heng⟩ := hc.of_ok
  rw [hr']
  exact congrArg (fun e => some (r, e)) heng

/-- When each run that gets to its loop starts on a broker with the initial capital in cash and no
open position, every run of the sequence delivers what it delivers on a new engine and broker. -/
theorem runs_isolated (configs : List BacktestConfig) (w : Backtest) (h : FreshStarts B configs w) :
    runs B configs w = configs.map (fun config => outcome (run B config (newBacktest B config))) := by
  induction configs generalizing w with
  | nil => rfl
  | cons config configs ih =>
    obtain ⟨r, w', hr⟩ := run_returns B config w
    have hout := outcome_run B config h.1
    unfold runs
    rw [List.map_cons, ← hout, hr]
    exact congrArg _ (ih w' (h.2 r w' hr))

/-- After a run that never gets to its loop, the next one is as on a new engine and broker. -/
theorem runs_isolated_after_idle :
    runs stopBench [{ stopConfig with symbols := [] }, stopConfig] (newBacktest stopBench stopConfig) =
      [{ stopConfig with symbols := [] }, stopConfig].map
        (fun config => outcome (run stopBench config (newBacktest stopBench config))) := by
  refine runs_isolated stopBench _ _ ⟨fun h => absurd rfl h.2.1, fun r w' hrun => ⟨fun _ => ?_, fun _ _ _ => trivial⟩⟩
  cases hrun
  exact ⟨rfl, fun _ => rfl⟩

/-- The cash in the snapshots of each run. -/
def snapshotCash (outcomes : List (Option (BacktestResult × BacktestEngine))) : List (Option (List Decimal)) :=
  outcomes.map (Option.map fun o => o.2.snapshots.map (·.cash))

/-- The first run loses money on a stop, and the second starts with what is left: it does not deliver
what a new engine and broker deliver for the same configuration. -/
theorem secondRun_not_isolated :
    runs stopBench [stopConfig, stopConfig] (newBacktest stopBench stopConfig) ≠
      [stopConfig, stopConfig].map
        (fun config => outcome (run stopBench config (newBacktest stopBench config))) := by
  intro h
  have hcash : snapshotCash (runs stopBench [stopConfig, stopConfig] (newBacktest stopBench stopConfig)) =
      [some [10000000, 8998850, 9897095], some [9897095, 8906958, 9795322]] := by decide +kernel
  have hnew : snapshotCash ([stopConfig, stopConfig].map
      (fun config => outcome (run stopBench config (newBacktest stopBench config)))) =
      [some [10000000, 8998850, 9897095], some [10000000, 8998850, 9897095]] := by decide +kernel
  rw [h, hnew] at hcash
  exact absurd hcash (by decide)

end BacktestEngine

end TradingAgent
