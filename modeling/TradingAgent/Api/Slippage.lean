/-
The configured slippage of a backtest. The request stores it in the run and in the configuration, but the broker is
built without it, so every BUY of the run fills with the default of ten basis points. The run honours the request
exactly if its slippage rounds every price of a BUY to the same won as the default does.
-/
import TradingAgent.Api.Backtest
import TradingAgent.Backtest.Outcomes
import TradingAgent.Backtest.OrderLimits

namespace TradingAgent

open Wp

/-! ## The trades of a run -/

namespace BacktestEngine

variable (B : Bench) (config : BacktestConfig)

/-- A BUY is recorded at the fill price of its day's open, or at the open where that is zero. -/
def FilledAtOpen (t : BacktestTradeRecord) : Prop := t.side = .buy →
  ∃ openPrice, B.loader.getOpenPrice t.symbol t.tradeDate = some openPrice ∧ 0 < openPrice ∧
    t.price = (if fillAt B openPrice = 0 then openPrice else fillAt B openPrice) ∧
    t.slippage = |t.price - openPrice| * t.quantity

/-- All trades are recorded so. -/
def AllAtOpen (w : Backtest) : Prop := ∀ t ∈ w.engine.trades, FilledAtOpen B t

/-- During a day the broker is at its date. -/
structure DayAtOpen (tradingDate : ℤ) (w : Backtest) : Prop where
  trades : AllAtOpen B w
  date : w.broker.currentDate = some tradingDate

variable {B config} {w : Backtest} {tradingDate : ℤ}

theorem filledAtOpen_entryTrade {signal : Signal} {openPrice : Decimal} {qty : ℤ} {order : OrderRequest}
    {r : OrderResult} {b' : SimulatedBroker} (h : Buys B signal tradingDate openPrice qty order r w b')
    (hdate : w.broker.currentDate = some tradingDate) :
    FilledAtOpen B (entryTrade signal tradingDate qty openPrice r) := by
  intro _
  obtain ⟨hsymbol, hside, htype, -⟩ := h.request
  obtain ⟨d, base, hfilled⟩ := h.filled
  obtain rfl : d = tradingDate := Option.some.inj (hfilled.date.symm.trans hdate)
  have hbase := hfilled.basePrice
  rw [htype, hsymbol, h.hasOpen] at hbase
  cases hbase
  refine ⟨openPrice, h.hasOpen, (riskCheck_eq_some_iff.1 h.risk).2.1, ?_, rfl⟩
  have hfill : SimulatedBroker.fillPrice B.brokerConfig order openPrice = fillAt B openPrice := by
    unfold SimulatedBroker.fillPrice fillAt
    rw [htype, hside]
  show fillPriceOf r openPrice = _
  unfold fillPriceOf
  rw [hfilled.filledPrice, hfill]

theorem keeps_executeSignal_atOpen (signal : Signal) :
    Keeps (DayAtOpen B tradingDate) (executeSignal B config tradingDate signal) := by
  intro w h
  refine wp_mono (executeSignal_outcome B config tradingDate signal w) ?_ ?_
  · rintro _ w' (rfl | ⟨openPrice, qty, order, r, limits, b', hbuys, rfl⟩)
    · exact h
    obtain ⟨d, base, hfilled⟩ := hbuys.filled
    refine ⟨fun t ht => ?_, hfilled.sameDate.trans h.date⟩
    rcases List.mem_append.1 ht with hold | hnew
    · exact h.trades t hold
    · rw [List.mem_singleton.1 hnew]
      exact filledAtOpen_entryTrade hbuys h.date
  · rintro _ w' (rfl | ⟨openPrice, qty, order, r, b', hbuys, rfl⟩)
    · exact h
    obtain ⟨d, base, hfilled⟩ := hbuys.filled
    exact ⟨h.trades, hfilled.sameDate.trans h.date⟩

theorem keeps_executeExit_allAtOpen (symbol : String) (date : ℤ) (exitReason : String) :
    Keeps (AllAtOpen B) (executeExit B symbol date exitReason) := by
  intro w h
  refine wp_mono (executeExit_outcome B symbol date exitReason w) ?_ ?_
  · rintro _ w' (rfl | ⟨pos, close, order, r, reason, b', hsells, rfl⟩)
    · exact h
    intro t ht
    rcases List.mem_append.1 ht with hold | hnew
    · exact h t hold
    · rw [List.mem_singleton.1 hnew]
      exact nofun
  · rintro _ w' (rfl | ⟨pos, close, order, r, b', hsells, rfl⟩) <;> exact h

theorem keeps_checkExits_atOpen : Keeps (DayAtOpen B tradingDate) (checkExits B config tradingDate) := by
  have hexit : ∀ symbol exitReason, Keeps (DayAtOpen B tradingDate) (executeExit B symbol tradingDate exitReason) := by
    intro symbol exitReason w h
    have hdate := keeps_executeExit B (date_orderStable B _ _) (date_pendingOnly (some tradingDate)).offTrading symbol
      tradingDate exitReason w h.date
    have htrades := keeps_executeExit_allAtOpen symbol tradingDate exitReason w h.trades
    exact wp_mono (wp_and htrades hdate) (fun _ _ h => ⟨h.1, h.2⟩) fun _ _ h => ⟨h.1, h.2⟩
  unfold checkExits
  refine keeps_bind keeps_get fun w => keeps_bind ?_ fun found => ?_
  · exact keeps_collectExits B config (fun w _ h => ⟨h.trades, h.date⟩) _ _
  · exact keeps_forM fun e _ => hexit e.1 e.2

/-- A day keeps the trades as they are recorded. -/
theorem keeps_daySteps_allAtOpen (tradingDate : ℤ) : Keeps (AllAtOpen B) (runAll (daySteps B config tradingDate)) := by
  intro w h
  unfold daySteps
  simp only [wp_runAll_cons]
  have hstart : wp (startDay B tradingDate) (fun _ w' => DayAtOpen B tradingDate w')
      (fun _ w' => AllAtOpen B w') w := by
    unfold startDay SimulatedBroker.setCurrentDate
    rw [wp_bind, wp_modifyEngine, wp_onBroker, wp_modify]
    exact ⟨h, rfl⟩
  refine wp_mono hstart (fun _ w₁ h₁ => ?_) fun _ _ h => h
  refine wp_mono (keeps_checkExits_atOpen w₁ h₁) (fun _ w₂ h₂ => ?_) fun _ _ h => h.trades
  have hpending : Keeps (DayAtOpen B tradingDate) (executePendingSignals B config tradingDate) :=
    keeps_bind keeps_get fun _ => keeps_bind (keeps_modify fun w h => ⟨h.trades, h.date⟩) fun _ =>
      keeps_forM fun signal _ => keeps_executeSignal_atOpen signal
  refine wp_mono (hpending w₂ h₂) (fun _ w₃ h₃ => ?_) fun _ _ h => h.trades
  refine wp_mono (keeps_generateSignals B config (I := AllAtOpen B) (fun w _ h => h) tradingDate w₃ h₃.trades)
    (fun _ w₄ h₄ => ?_) fun _ _ h => h
  refine wp_mono (keeps_recordSnapshot B (I := AllAtOpen B) (fun w _ _ _ h => h) tradingDate w₄ h₄)
    (fun _ w₅ h₅ => ?_) fun _ _ h => h
  exact h₅

theorem keeps_loopSteps_allAtOpen : ∀ dates : List ℤ, Keeps (AllAtOpen B) (runAll (loopSteps B config dates))
  | [] => by
    unfold loopSteps runAll
    exact keeps_forM nofun
  | d :: dates => by
    unfold loopSteps
    rw [List.flatMap_cons, runAll_append]
    exact keeps_bind (keeps_daySteps_allAtOpen d) fun _ => keeps_loopSteps_allAtOpen dates

theorem prepare_allAtOpen (w₀ : Backtest) :
    wp (prepare B config) (fun _ w => AllAtOpen B w) (fun _ w => AllAtOpen B w) w₀ := by
  have hnone : ∀ w : Backtest, w.engine.trades = [] → AllAtOpen B w := by
    intro w hw t ht
    rw [hw] at ht
    cases ht
  unfold prepare
  rw [wp_bind, wp_modify]
  cases config.mode with
  | technical => exact hnone _ rfl
  | llmLive => exact hnone _ rfl
  | llmReplay => cases B.sessionFactory <;> exact hnone _ rfl

/-- The trades that a run reports are recorded at the open. -/
theorem run_allAtOpen (w₀ : Backtest) :
    wp (run B config) (fun r _ => ∀ t ∈ r.trades, FilledAtOpen B t) (fun _ _ => True) w₀ := by
  refine wp_mono (run_rule B config (P := AllAtOpen B) (J := AllAtOpen B) (fun _ h => h) keeps_executeExit_allAtOpen
    keeps_loopSteps_allAtOpen (prepare_allAtOpen w₀)) ?_ fun _ _ h => h.elim
  rintro r w ⟨hw, htrades | htrades⟩ t ht
  · rw [htrades] at ht
    exact hw t ht
  · rw [htrades] at ht
    cases ht

end BacktestEngine

/-! ## Requests -/

namespace BacktestRoute

open BacktestEngine

variable (services : BacktestServices)

/-- The price with so many basis points of slippage, in whole won. -/
def roundAt (slippageBps : ℤ) (openPrice : Decimal) : Decimal := quantize0 (openPrice * (1 + slippageBps / 10000))

/-- The trades of the run that a request executes; a request that is not accepted executes none. -/
def executedTrades (req : RunBacktestRequest) : List BacktestTradeRecord :=
  if req.startDate > req.endDate then []
  else match engineRun services (configOf req) with
    | .ok result _ => result.trades
    | .error _ _ => []

/-- The open of the day of a trade. -/
def openOf (req : RunBacktestRequest) (t : BacktestTradeRecord) : Option Decimal :=
  (loaderOf services (configOf req)).getOpenPrice t.symbol t.tradeDate

/-- The price of a trade is the open with the slippage of the request, and its slippage the difference. -/
def Honours (req : RunBacktestRequest) (t : BacktestTradeRecord) : Prop :=
  ∃ openPrice, openOf services req t = some openPrice ∧ t.price = roundAt req.slippageBps openPrice ∧
    t.slippage = |t.price - openPrice| * t.quantity

/-- Every BUY of the run honours the slippage of its request. -/
def HonoursSlippage (req : RunBacktestRequest) : Prop :=
  ∀ t ∈ executedTrades services req, t.side = .buy → Honours services req t

/-- Where the two slippages round the price of a BUY differently, the runs differ in their trades. -/
def DifferInFills (req req' : RunBacktestRequest) : Prop :=
  (∃ t ∈ executedTrades services req ++ executedTrades services req', t.side = .buy ∧
      ∃ openPrice, openOf services req t = some openPrice ∧
        roundAt req.slippageBps openPrice ≠ roundAt req'.slippageBps openPrice) →
    executedTrades services req ≠ executedTrades services req'

/-- The slippage of the request rounds the open of every BUY to the same won, other than zero, as the default. -/
def RoundsAsDefault (req : RunBacktestRequest) : Prop :=
  ∀ t ∈ executedTrades services req, t.side = .buy → ∀ openPrice, openOf services req t = some openPrice →
    roundAt 10 openPrice ≠ 0 ∧ roundAt req.slippageBps openPrice = roundAt 10 openPrice

variable {services} {req : RunBacktestRequest}

/-- The broker of every run has the default slippage. -/
theorem fillAt_benchOf (config : BacktestConfig) (openPrice : Decimal) :
    fillAt (benchOf services config) openPrice = roundAt 10 openPrice := rfl

theorem executedTrades_atOpen (req : RunBacktestRequest) :
    ∀ t ∈ executedTrades services req, FilledAtOpen (benchOf services (configOf req)) t := by
  intro t ht
  unfold executedTrades at ht
  split at ht
  · cases ht
  · split at ht
    · rename_i result w hrun
      exact wp_of_ok (run_allAtOpen _) hrun t ht
    · cases ht

/-- A price between zero and half a won is no whole number of won. -/
theorem ne_roundAt_of_zero {openPrice : Decimal} (hpos : 0 < openPrice) (hzero : roundAt 10 openPrice = 0)
    (slippageBps : ℤ) : openPrice ≠ roundAt slippageBps openPrice := by
  unfold roundAt quantize0 at hzero ⊢
  have hhalf := (Rounding.halfUp_eq_zero_iff (mul_nonneg hpos.le (by norm_num))).1 (Int.cast_eq_zero.1 hzero)
  have hlt : openPrice < 1 := by
    push_cast at hhalf
    linarith
  intro heq
  rw [heq] at hpos hlt
  have h0 : 0 < Rounding.halfUp (openPrice * (1 + slippageBps / 10000)) := Int.cast_pos.1 hpos
  have h1 : Rounding.halfUp (openPrice * (1 + slippageBps / 10000)) < 1 := by exact_mod_cast hlt
  omega

/-- A BUY honours the slippage of the request exactly if that rounds its open as the default does. -/
theorem honours_iff {t : BacktestTradeRecord} (ht : FilledAtOpen (benchOf services (configOf req)) t)
    (hbuy : t.side = .buy) :
    Honours services req t ↔ ∀ openPrice, openOf services req t = some openPrice →
      roundAt 10 openPrice ≠ 0 ∧ roundAt req.slippageBps openPrice = roundAt 10 openPrice := by
  obtain ⟨openPrice, hopen, hpos, hprice, hslippage⟩ := ht hbuy
  have hopen' : openOf services req t = some openPrice := hopen
  rw [fillAt_benchOf] at hprice
  have hlaw : Honours services req t ↔ t.price = roundAt req.slippageBps openPrice := by
    constructor
    · rintro ⟨other, hother, hlaw, -⟩
      cases hopen'.symm.trans hother
      exact hlaw
    · intro hlaw
      exact ⟨openPrice, hopen', hlaw, hslippage⟩
  rw [hlaw, hopen', hprice]
  simp only [Option.some.injEq, forall_eq']
  split
  · rename_i hzero
    exact iff_of_false (ne_roundAt_of_zero hpos hzero _) fun h => h.1 hzero
  · rename_i hne
    rw [and_iff_right hne]
    exact eq_comm

theorem honoursSlippage_iff (req : RunBacktestRequest) :
    HonoursSlippage services req ↔ RoundsAsDefault services req := by
  unfold HonoursSlippage RoundsAsDefault
  constructor
  · intro h t ht hbuy
    exact (honours_iff (executedTrades_atOpen req t ht) hbuy).1 (h t ht hbuy)
  · intro h t ht hbuy
    exact (honours_iff (executedTrades_atOpen req t ht) hbuy).2 (h t ht hbuy)

/-- Two runs that both honour their slippage differ wherever the rounded prices do. -/
theorem differInFills_of_honours {slippageBps : ℤ} (h : HonoursSlippage services req)
    (h' : HonoursSlippage services { req with slippageBps := slippageBps }) :
    DifferInFills services req { req with slippageBps := slippageBps } := by
  rintro ⟨t, ht, hbuy, openPrice, hopen, hne⟩ heq
  have hmem : t ∈ executedTrades services req ∧
      t ∈ executedTrades services { req with slippageBps := slippageBps } := by
    rcases List.mem_append.1 ht with hleft | hright
    · exact ⟨hleft, heq ▸ hleft⟩
    · exact ⟨heq ▸ hright, hright⟩
  obtain ⟨p, hp, hprice, -⟩ := h t hmem.1 hbuy
  obtain ⟨p', hp', hprice', -⟩ := h' t hmem.2 hbuy
  have hp'' : openOf services req t = some p' := hp'
  cases hopen.symm.trans hp
  cases hopen.symm.trans hp''
  exact hne (hprice.symm.trans hprice')

/-- Two requests that differ only in their slippage are honoured exactly if both slippages round the open of every
BUY as the default does. -/
theorem slippage_honoured_iff (services : BacktestServices) (req : RunBacktestRequest) (slippageBps : ℤ) :
    (HonoursSlippage services req ∧ HonoursSlippage services { req with slippageBps := slippageBps } ∧
        DifferInFills services req { req with slippageBps := slippageBps }) ↔
      RoundsAsDefault services req ∧ RoundsAsDefault services { req with slippageBps := slippageBps } := by
  rw [← honoursSlippage_iff, ← honoursSlippage_iff]
  constructor
  · rintro ⟨h, h', -⟩
    exact ⟨h, h'⟩
  · rintro ⟨h, h'⟩
    exact ⟨h, h', differInFills_of_honours h h'⟩

/-- A request and its task store the trades of the executed run, or none where loading or storing fails. -/
theorem post_trades (runId : ℕ) (req : RunBacktestRequest) (db : BacktestDb) :
    wp (post services runId req)
      (fun _ db' => db'.trades = db.trades ++ (executedTrades services req).map (BacktestTrade.mk runId) ∨
        (services.loadError ≠ none ∨ services.commitError ≠ none) ∧ db'.trades = db.trades)
      (fun e db' => e = .httpError 422 "start_date must be <= end_date" ∧ db' = db) db := by
  have hrun : ∀ config, ∃ r w, engineRun services config = .ok r w := by
    intro config
    have hok : wp (run (benchOf services config) config) (fun _ _ => True) (fun _ _ => False)
        ⟨{}, SimulatedBroker.new (benchOf services config).brokerConfig⟩ := by
      unfold run
      rw [wp_tryCatch]
      exact wp_mono (wp_true _ _) (fun _ _ _ => trivial) fun _ _ _ => trivial
    unfold wp at hok
    unfold engineRun
    split at hok
    · rename_i r w heq
      exact ⟨r, w, heq⟩
    · exact hok.elim
  obtain ⟨r, w, hr⟩ := hrun (configOf req)
  unfold post runBacktest executedTrades
  rw [wp_bind, wp_ite]
  split
  · exact ⟨rfl, rfl⟩
  rw [hr]
  unfold executeBacktest executeBody updateRun
  simp only [wp_bind, wp_modify, wp_pure, wp_tryCatch]
  cases hload : services.loadError with
  | some e => exact .inr ⟨.inl nofun, rfl⟩
  | none =>
    rw [hr]
    cases hcommit : services.commitError with
    | some e => exact .inr ⟨.inr nofun, rfl⟩
    | none => exact .inl rfl

/-- The prices of two days and one decision to buy. -/
def twoDayServices : BacktestServices where
  bars := twoDays 1000
  unique := by decide
  settings := {}
  decisions := [buyDecision 1 "A" 1]
  indicators := noIndicators
  calculate _ _ _ _ _ := .error .indicatorError

/-- A replay request with a slippage of half a percent. -/
def halfPercent : RunBacktestRequest where
  strategyType := .swing
  startDate := 1
  endDate := 2
  symbols := ["A"]
  slippageBps := 50
  mode := .llmReplay

/-- The one trade of its run. -/
def boughtAtDefault : BacktestTradeRecord :=
  { symbol := "A", side := .buy, quantity := 1000, price := 1001, commission := 150, slippage := 1000, tradeDate := 2 }

/-- An open of 1000 won with 50 basis points of slippage is bought at 1001 won, as with 10. -/
theorem not_honoursSlippage_halfPercent :
    ¬ HonoursSlippage twoDayServices halfPercent ∧
      ¬ DifferInFills twoDayServices halfPercent { halfPercent with slippageBps := 10 } := by
  have htrades : executedTrades twoDayServices halfPercent = [boughtAtDefault] ∧
      executedTrades twoDayServices { halfPercent with slippageBps := 10 } = [boughtAtDefault] := by decide +kernel
  have hmem : boughtAtDefault ∈ executedTrades twoDayServices halfPercent := htrades.1 ▸ List.mem_singleton_self _
  have hopen : openOf twoDayServices halfPercent boughtAtDefault = some 1000 := by decide +kernel
  refine ⟨fun h => ?_, fun h => ?_⟩
  · obtain ⟨openPrice, hopen', hprice, -⟩ := h _ hmem rfl
    cases hopen.symm.trans hopen'
    revert hprice
    decide +kernel
  · refine h ⟨_, List.mem_append_left _ hmem, rfl, 1000, hopen, ?_⟩ (htrades.1.trans htrades.2.symm)
    decide +kernel

end BacktestRoute

end TradingAgent
