/-
The trade counts of a walk-forward analysis. A window counts the trade records of its out-of-sample backtest, of
which a round trip leaves two, and the aggregate counts the closed positions with a result. So the counts agree
exactly if no out-of-sample backtest enters a position.
-/
import TradingAgent.Backtest.WalkForward
import TradingAgent.Backtest.Turns
import TradingAgent.Backtest.Outcomes
import Mathlib.Algebra.BigOperators.Ring.List

namespace TradingAgent

open Wp

namespace BacktestEngine

variable {B : Bench} {config : BacktestConfig} {w₀ w : Backtest}

/-! ## Trades and closed positions -/

/-- The trades have a BUY for each open position, and a BUY and a SELL for each closed one. -/
def Paired (w : Backtest) : Prop :=
  w.engine.positions.items.length + 2 * w.engine.closedPositions.length ≤ w.engine.trades.length

theorem executeExit_paired (symbol : String) (tradingDate : ℤ) (exitReason : String) (h : Paired w) :
    wp (executeExit B symbol tradingDate exitReason) (fun _ w' => Paired w') (fun _ _ => True) w := by
  refine wp_mono (executeExit_outcome B symbol tradingDate exitReason w) ?_ fun _ _ _ => trivial
  rintro _ w' (rfl | ⟨pos, close, order, r, reason, b', hsells, rfl⟩)
  · exact h
  · have hlt := Dict.length_erase_lt hsells.held
    unfold Paired exited at *
    simp only [List.length_append, List.length_singleton]
    omega

theorem executeSignal_paired (tradingDate : ℤ) (signal : Signal) (h : Paired w) :
    wp (executeSignal B config tradingDate signal) (fun _ w' => Paired w') (fun _ _ => True) w := by
  refine wp_mono (executeSignal_outcome B config tradingDate signal w) ?_ fun _ _ _ => trivial
  rintro _ w' (rfl | ⟨openPrice, qty, order, r, limits, b', hbuys, rfl⟩)
  · exact h
  · have hle := Dict.length_set_le w.engine.positions signal.symbol
      (entryPosition config signal tradingDate qty openPrice r limits (w.engine.positionIdCounter + 1))
    unfold Paired entered at *
    simp only [List.length_append, List.length_singleton]
    omega

theorem dayStep_paired {tradingDate : ℤ} {x : M PUnit} (hx : x ∈ daySteps B config tradingDate) (h : Paired w) :
    wp x (fun _ w' => Paired w') (fun _ _ => True) w := by
  unfold daySteps at hx
  simp only [List.mem_cons, List.not_mem_nil, or_false] at hx
  rcases hx with rfl | rfl | rfl | rfl | rfl
  · unfold startDay SimulatedBroker.setCurrentDate
    rw [wp_bind, wp_modifyEngine, wp_onBroker, wp_modify]
    exact h
  · unfold checkExits
    rw [wp_bind, wp_get, wp_bind]
    refine wp_mono (keeps_collectExits B config (I := Paired) (fun w _ h => h) _ _ w h) (fun found w₁ h₁ => ?_)
      fun _ _ _ => trivial
    exact wp_forM (fun e _ w h => executeExit_paired e.1 tradingDate e.2 h) h₁
  · unfold executePendingSignals
    rw [wp_bind, wp_get, wp_bind, wp_modifyEngine]
    exact wp_forM (fun signal _ w h => executeSignal_paired tradingDate signal h) h
  · exact wp_mono (keeps_generateSignals B config (I := Paired) (fun w _ h => h) tradingDate w h) (fun _ _ h => h)
      fun _ _ _ => trivial
  · exact wp_mono (keeps_recordSnapshot B (I := Paired) (fun w _ _ _ h => h) tradingDate w h) (fun _ _ h => h)
      fun _ _ _ => trivial

/-! ## The counts of one run -/

/-- A result counts its trades, and its metrics are those of the closed positions and snapshots of an engine. -/
structure Counts (B : Bench) (config : BacktestConfig) (r : BacktestResult) (w : Backtest) : Prop where
  trades : r.trades = w.engine.trades
  length : r.totalTrades = r.trades.length
  metrics : ∀ m, r.metrics = some m → B.calculate w.engine.closedPositions w.engine.snapshots config.startDate
    config.endDate B.riskFreeRatePct = .ok m

theorem calculateMetrics_spec (w : Backtest) :
    wp (calculateMetrics B config) (fun metrics w' => w' = w ∧ ∀ m, metrics = some m →
      B.calculate w.engine.closedPositions w.engine.snapshots config.startDate config.endDate B.riskFreeRatePct = .ok m)
      (fun _ _ => True) w := by
  unfold calculateMetrics
  rw [wp_bind, wp_get]
  dsimp only
  split
  · exact ⟨rfl, fun m hm => absurd hm.symm (Option.some_ne_none m)⟩
  · rw [wp_map]
    cases hm : B.calculate w.engine.closedPositions w.engine.snapshots config.startDate config.endDate
        B.riskFreeRatePct with
    | error e => trivial
    | ok m => exact ⟨rfl, fun m' hm' => congrArg Except.ok (Option.some.inj hm')⟩

/-- A run that ends normally counts what its loop has left. -/
theorem finish_counts (lastDate : ℤ) (w : Backtest) :
    wp (finish B config lastDate) (fun r _ => Counts B config r w) (fun _ _ => True) w := by
  have hrest : wp (do
      let metrics ← calculateMetrics B config
      let e := (← get).engine
      pure ({ config, status := .completed, metrics, trades := e.trades, totalTrades := e.trades.length } :
        BacktestResult)) (fun r _ => Counts B config r w) (fun _ _ => True) w := by
    rw [wp_bind]
    refine wp_mono (calculateMetrics_spec w) (fun metrics w' h => ?_) fun _ _ h => h
    obtain ⟨rfl, hm⟩ := h
    exact ⟨rfl, rfl, hm⟩
  unfold finish
  rw [wp_bind, wp_get, wp_ite]
  split
  · rw [wp_bind]
    refine wp_mono (forceCloseAll_spec B lastDate w) (fun _ w' hw' => ?_) fun _ _ h => h
    rw [hw']
    exact hrest
  · exact hrest

/-- What a run counts: all its trades, and in the metrics at most half of them. -/
structure Halved (r : BacktestResult) : Prop where
  length : r.totalTrades = r.trades.length
  half : ∀ m, r.metrics = some m → 2 * m.totalTrades ≤ r.totalTrades
  sum : ∀ m, r.metrics = some m → m.totalTrades = m.winningTrades + m.losingTrades

theorem halved_of_noMetrics {r : BacktestResult} (hlength : r.totalTrades = r.trades.length)
    (hnone : r.metrics = none) : Halved r := by
  have hnot : ∀ m, r.metrics ≠ some m := fun m hm => absurd (hm.symm.trans hnone) (Option.some_ne_none m)
  exact ⟨hlength, fun m hm => absurd hm (hnot m), fun m hm => absurd hm (hnot m)⟩

/-- Metrics count each closed position at most once, as a win or as a loss. -/
theorem calculate_counts {math : DecimalMath} {closed : List PositionRecord} {snapshots : List PortfolioSnapshot}
    {periodStart periodEnd : ℤ} {riskFree : Decimal} {m : PerformanceMetrics}
    (h : PerformanceCalculator.calculate math closed snapshots periodStart periodEnd riskFree = .ok m) :
    m.totalTrades = m.winningTrades + m.losingTrades ∧ m.totalTrades ≤ closed.length := by
  have hcounts : (PerformanceCalculator.calculateWinRate closed).2.1 +
      (PerformanceCalculator.calculateWinRate closed).2.2 ≤ closed.length := by
    unfold PerformanceCalculator.calculateWinRate
    dsimp only
    split
    · exact Nat.zero_le _
    · rw [List.length_eq_countP_add_countP (fun p => p.realizedPnl.any (fun x => x > 0))]
      refine Nat.add_le_add_left (List.countP_mono_left fun p _ hloss => ?_) _
      cases hpnl : p.realizedPnl with
      | none =>
        rw [hpnl] at hloss
        cases hloss
      | some x =>
        rw [hpnl] at hloss
        simpa using hloss
  unfold PerformanceCalculator.calculate at h
  obtain ⟨sharpe, -, h⟩ := bind_eq_ok.1 h
  obtain ⟨sortino, -, h⟩ := bind_eq_ok.1 h
  obtain ⟨annualized, -, h⟩ := bind_eq_ok.1 h
  cases h
  exact ⟨rfl, hcounts⟩

/-- A reset engine: no positions, open or closed, and no trades. -/
structure Reset (w : Backtest) : Prop where
  positions : w.engine.positions = Dict.empty
  closedPositions : w.engine.closedPositions = []
  trades : w.engine.trades = []

theorem prepare_reset (w₀ : Backtest) :
    wp (prepare B config) (fun _ w => Reset w) (fun _ w => Reset w) w₀ := by
  unfold prepare
  rw [wp_bind, wp_modify]
  cases config.mode with
  | technical => exact ⟨rfl, rfl, rfl⟩
  | llmLive => exact ⟨rfl, rfl, rfl⟩
  | llmReplay =>
    cases B.sessionFactory with
    | none => exact ⟨rfl, rfl, rfl⟩
    | some rows => exact ⟨rfl, rfl, rfl⟩

theorem Reset.paired (h : Reset w) : Paired w := by
  unfold Paired
  rw [h.positions, h.closedPositions]
  exact Nat.zero_le _

/-- Every run reports metrics of at most half of its trades. -/
theorem run_halved (math : DecimalMath) (w₀ : Backtest) :
    wp (run (B.withMetrics math) config) (fun r _ => Halved r) (fun _ _ => False) w₀ := by
  have hbody : wp (runBody (B.withMetrics math) config) (fun r _ => Halved r) (fun _ _ => True) w₀ := by
    unfold runBody
    rw [wp_bind]
    refine wp_mono (prepare_reset w₀) (fun _ w₁ h₁ => ?_) fun _ _ _ => trivial
    cases (tradingDates (B.withMetrics math) config).getLast? with
    | none => exact halved_of_noMetrics rfl rfl
    | some lastDate =>
      dsimp only
      rw [wp_ite]
      split
      · exact halved_of_noMetrics rfl rfl
      · rw [wp_bind]
        have hloop : wp (runAll (loopSteps (B.withMetrics math) config (tradingDates (B.withMetrics math) config)))
            (fun _ w => Paired w) (fun _ _ => True) w₁ := by
          refine wp_forM (fun x hx w hw => ?_) h₁.paired
          obtain ⟨d, -, hd⟩ := List.mem_flatMap.1 hx
          exact dayStep_paired hd hw
        refine wp_mono hloop (fun _ w₂ h₂ => ?_) fun _ _ h => h
        refine wp_mono (finish_counts lastDate w₂) (fun r _ hr => ?_) fun _ _ h => h
        refine ⟨hr.length, fun m hm => ?_, fun m hm => (calculate_counts (hr.metrics m hm)).1⟩
        have hclosed := (calculate_counts (hr.metrics m hm)).2
        have hlength := hr.length
        rw [hr.trades] at hlength
        unfold Paired at h₂
        omega
  unfold run
  rw [wp_tryCatch]
  exact wp_mono hbody (fun _ _ h => h) fun e w _ => halved_of_noMetrics rfl rfl

/-! ## Entries -/

/-- The holding limits of an entry can be read from the configuration. -/
def LimitsReadable (config : BacktestConfig) : Prop := ∃ limits, ∀ w, entryLimits config w = .ok limits w

theorem entryLimits_cases (config : BacktestConfig) :
    LimitsReadable config ∨ ∀ w, ∃ e, entryLimits config w = .error e w := by
  unfold LimitsReadable entryLimits
  cases config.strategyType with
  | position =>
    cases (posParam config "trailing_stop_pct").asDecimal with
    | none => exact .inr fun w => ⟨_, rfl⟩
    | some trailingPct =>
      cases (posParam config "max_holding_days").asInt with
      | none => exact .inr fun w => ⟨_, rfl⟩
      | some maxDays => exact .inl ⟨_, fun w => rfl⟩
  | swing =>
    cases (swingParam config "max_holding_days").asInt with
    | none => exact .inr fun w => ⟨_, rfl⟩
    | some maxDays => exact .inl ⟨_, fun w => rfl⟩

/-- A signal at its turn enters a position: nothing bars it, the cash covers its cost, and the limits of the
position can be read. -/
structure Enters (B : Bench) (config : BacktestConfig) (tradingDate : ℤ) (signal : Signal) (w : Backtest) : Prop where
  action : signal.action = .buy
  covered : ∃ openPrice qty, B.loader.getOpenPrice signal.symbol tradingDate = some openPrice ∧
    riskCheck B w signal.symbol signal.quantity openPrice = some qty ∧ costAt B openPrice qty ≤ w.broker.cash
  limits : LimitsReadable config

/-- A signal that enters leaves a trade; any other leaves the engine as it was, and ends normally only if it has
changed nothing. -/
theorem executeSignal_enters {tradingDate : ℤ} (signal : Signal) (hdate : w.broker.currentDate = some tradingDate) :
    wp (executeSignal B config tradingDate signal)
      (fun _ w' => ¬ Enters B config tradingDate signal w ∧ w' = w ∨
        Enters B config tradingDate signal w ∧ w'.engine.trades ≠ [])
      (fun _ w' => ¬ Enters B config tradingDate signal w ∧ w'.engine = w.engine) w := by
  unfold executeSignal
  rw [wp_ite]
  split
  · rename_i haction
    exact .inl ⟨fun h => haction h.action, rfl⟩
  rename_i haction
  rw [wp_bind, wp_get, wp_ite]
  split
  · rename_i hheld
    refine .inl ⟨fun h => ?_, rfl⟩
    obtain ⟨openPrice, qty, -, hrisk, -⟩ := h.covered
    have hunheld := (riskCheck_eq_some_iff.1 hrisk).1.unheld
    rw [(Dict.contains_eq_false_iff _ _).2 hunheld] at hheld
    cases hheld
  cases hopen : B.loader.getOpenPrice signal.symbol tradingDate with
  | none =>
    refine .inl ⟨fun h => ?_, rfl⟩
    obtain ⟨openPrice, qty, hopen', -⟩ := h.covered
    rw [hopen] at hopen'
    cases hopen'
  | some openPrice =>
    dsimp only
    rw [wp_bind, wp_get]
    cases hrisk : riskCheck B w signal.symbol signal.quantity openPrice with
    | none =>
      refine .inl ⟨fun h => ?_, rfl⟩
      obtain ⟨openPrice', qty, hopen', hrisk', -⟩ := h.covered
      rw [hopen] at hopen'
      cases hopen'
      rw [hrisk] at hrisk'
      cases hrisk'
    | some qty =>
      dsimp only
      have hmake : ∃ order, OrderRequest.make? signal.symbol .buy .market qty none "backtest_entry" = some order := by
        unfold OrderRequest.make?
        rw [dif_pos (riskCheck_eq_some_iff.1 hrisk).2.2.1.pos]
        exact ⟨_, rfl⟩
      obtain ⟨order, horder⟩ := hmake
      obtain ⟨hsymbol, hside, htype, hquantity, -⟩ := make?_eq_some horder
      have hplace := placeOrder_market_buy hdate hside htype (hsymbol ▸ hopen)
      rw [hquantity] at hplace
      rw [horder]
      dsimp only
      rw [wp_bind, wp_tryCatch, wp_map, wp_onBroker]
      refine wp_mono (wp_and hplace (SimulatedBroker.placeOrder_spec B.loader B.brokerConfig order w.broker)) ?_ ?_
      · rintro r b' ⟨⟨-, hcash⟩, -⟩
        unfold recordEntry
        dsimp only
        rw [wp_bind]
        rcases entryLimits_cases config with ⟨limits, hlimits⟩ | hunreadable
        · rw [wp_eq_of_ok (hlimits _), wp_modifyEngine]
          refine .inr ⟨⟨not_not.1 haction, ⟨openPrice, qty, hopen, hrisk, hcash⟩, ⟨limits, hlimits⟩⟩, ?_⟩
          exact List.append_ne_nil_of_right_ne_nil _ (List.cons_ne_nil _ _)
        · obtain ⟨e, he⟩ := hunreadable { w with broker := b' }
          rw [wp_eq_of_error he]
          refine ⟨fun h => ?_, rfl⟩
          obtain ⟨limits, hlimits⟩ := h.limits
          rw [hlimits] at he
          cases he
      · rintro e b' ⟨⟨-, hlack⟩, rfl⟩
        refine .inl ⟨fun h => ?_, rfl⟩
        obtain ⟨openPrice', qty', hopen', hrisk', hcash⟩ := h.covered
        rw [hopen] at hopen'
        cases hopen'
        rw [hrisk] at hrisk'
        cases hrisk'
        exact absurd hcash (not_le.2 hlack)

/-! ## Runs without an entry -/

/-- A property that reads of a backtest only the positions, open and closed, and the trades of the engine. -/
def AccountsOnly (I : Backtest → Prop) : Prop :=
  ∀ w e' b, e'.positions = w.engine.positions → e'.closedPositions = w.engine.closedPositions →
    e'.trades = w.engine.trades → I w → I { engine := e', broker := b }

theorem reset_accountsOnly : AccountsOnly Reset := by
  intro w e' b hpositions hclosed htrades h
  exact ⟨hpositions.trans h.positions, hclosed.trans h.closedPositions, htrades.trans h.trades⟩

/-- Some trade has been recorded. -/
def Traded (w : Backtest) : Prop := w.engine.trades ≠ []

theorem traded_accountsOnly : AccountsOnly Traded := by
  intro w e' b _ _ htrades h
  unfold Traded at h ⊢
  rwa [htrades]

variable {I : Backtest → Prop}

theorem AccountsOnly.startDay (hI : AccountsOnly I) (tradingDate : ℤ) : Keeps I (startDay B tradingDate) := by
  intro w hw
  unfold BacktestEngine.startDay SimulatedBroker.setCurrentDate
  rw [wp_bind, wp_modifyEngine, wp_onBroker, wp_modify]
  exact hI w _ _ rfl rfl rfl hw

theorem AccountsOnly.checkExits (hI : AccountsOnly I)
    (hexit : ∀ symbol tradingDate exitReason, Keeps I (executeExit B symbol tradingDate exitReason)) (tradingDate : ℤ) :
    Keeps I (checkExits B config tradingDate) := by
  unfold BacktestEngine.checkExits
  refine keeps_bind keeps_get fun w => keeps_bind ?_ fun found => ?_
  · exact keeps_collectExits B config (fun w _ h => hI w _ _ rfl rfl rfl h) _ _
  · exact keeps_forM fun e _ => hexit e.1 tradingDate e.2

/-- A reset engine holds nothing to exit. -/
theorem keeps_executeExit_reset (symbol : String) (tradingDate : ℤ) (exitReason : String) :
    Keeps Reset (executeExit B symbol tradingDate exitReason) := by
  intro w h
  unfold executeExit
  rw [wp_bind, wp_get, h.positions, Dict.get?_empty]
  exact h

theorem keeps_executeExit_traded (symbol : String) (tradingDate : ℤ) (exitReason : String) :
    Keeps Traded (executeExit B symbol tradingDate exitReason) := by
  intro w h
  refine wp_mono (executeExit_outcome B symbol tradingDate exitReason w) ?_ ?_
  · rintro _ w' (rfl | ⟨pos, close, order, r, reason, b', -, rfl⟩)
    · exact h
    · exact List.append_ne_nil_of_left_ne_nil h _
  · rintro _ w' (rfl | ⟨pos, close, order, r, b', -, rfl⟩)
    · exact h
    · exact h

theorem keeps_executeSignal_traded (tradingDate : ℤ) (signal : Signal) :
    Keeps Traded (executeSignal B config tradingDate signal) := by
  intro w h
  refine wp_mono (executeSignal_outcome B config tradingDate signal w) ?_ ?_
  · rintro _ w' (rfl | ⟨openPrice, qty, order, r, limits, b', -, rfl⟩)
    · exact h
    · exact List.append_ne_nil_of_left_ne_nil h _
  · rintro _ w' (rfl | ⟨openPrice, qty, order, r, b', -, rfl⟩)
    · exact h
    · exact h

theorem traded_runInvariant : RunInvariant B config Traded Traded where
  weaken _ h := h
  start := traded_accountsOnly.startDay
  exits := traded_accountsOnly.checkExits keeps_executeExit_traded
  clear _ h := h
  entry := keeps_executeSignal_traded
  generate := keeps_generateSignals B config fun w _ h => traded_accountsOnly w _ _ rfl rfl rfl h
  snapshot := keeps_recordSnapshot B fun w _ _ _ h => traded_accountsOnly w _ _ rfl rfl rfl h
  exit := keeps_executeExit_traded

/-- In the run from a state no signal enters a position at its turn. -/
def NoEntry (B : Bench) (config : BacktestConfig) (w₀ : Backtest) : Prop :=
  ∀ tradingDate signal w, TurnOf B config w₀ tradingDate signal w → ¬ Enters B config tradingDate signal w

/-- A run without an entry keeps the engine reset. -/
theorem reset_turnInvariant (hnone : NoEntry B config w₀) :
    TurnInvariant B config w₀ Reset Reset where
  weaken _ h := h
  start := reset_accountsOnly.startDay
  exits := reset_accountsOnly.checkExits keeps_executeExit_reset
  clear w h := ⟨h.positions, h.closedPositions, h.trades⟩
  entry tradingDate signal w hturn h := by
    have hnot := hnone tradingDate signal w hturn
    refine wp_mono (executeSignal_enters signal hturn.date) ?_ ?_
    · rintro _ w' (⟨-, rfl⟩ | ⟨henters, -⟩)
      · exact h
      · exact absurd henters hnot
    · rintro _ w' ⟨-, hengine⟩
      exact reset_accountsOnly w _ _ (congrArg _ hengine) (congrArg _ hengine) (congrArg _ hengine) h
  generate := keeps_generateSignals B config fun w _ h => reset_accountsOnly w _ _ rfl rfl rfl h
  snapshot := keeps_recordSnapshot B fun w _ _ _ h => reset_accountsOnly w _ _ rfl rfl rfl h
  exit := keeps_executeExit_reset

/-- A run without an entry closes no position and leaves no trade. -/
theorem NoEntry.run (h : NoEntry B config w₀) :
    wp (run B config) (fun r w => w.engine.closedPositions = [] ∧ r.trades = []) (fun _ _ => False) w₀ := by
  refine wp_mono ((reset_turnInvariant h).run (prepare_reset w₀)) (fun r w hr => ?_) fun _ _ h => h
  obtain ⟨hreset, htrades⟩ := hr
  refine ⟨hreset.closedPositions, ?_⟩
  rcases htrades with htrades | htrades
  · exact htrades.trans hreset.trades
  · exact htrades

/-- A run with an entry leaves a trade. -/
theorem run_trades_ne_nil (h : ¬ NoEntry B config w₀) :
    wp (run B config) (fun r _ => r.trades ≠ []) (fun _ _ => False) w₀ := by
  unfold NoEntry at h
  push Not at h
  obtain ⟨tradingDate, signal, w, hturn, henters⟩ := h
  refine wp_mono (run_of_turn traded_runInvariant hturn ?_) (fun r w' hr => ?_) fun _ _ h => h
  · refine wp_mono (executeSignal_enters signal hturn.date) ?_ ?_
    · rintro _ w' (⟨hnot, -⟩ | ⟨-, htraded⟩)
      · exact absurd henters hnot
      · exact htraded
    · rintro _ w' ⟨hnot, -⟩
      exact absurd henters hnot
  · rw [hr.2]
    exact hr.1

end BacktestEngine

namespace WalkForwardAnalyzer

open BacktestEngine

/-! ## The counts of an analysis -/

/-- The configurations and states from which the out-of-sample backtests of the windows start. -/
def oosStarts (B : Bench) (config : BacktestConfig) : List WindowDates → Backtest → List (BacktestConfig × Backtest)
  | [], _ => []
  | dates :: rest, w =>
    let start := (periodConfig config dates.oosStart dates.oosEnd,
      BacktestEngine.left (run B (periodConfig config dates.isStart dates.isEnd) w))
    start :: oosStarts B config rest (BacktestEngine.left (run B start.1 start.2))

/-- The positions that the backtests have closed. -/
def roundTrips (B : Bench) (starts : List (BacktestConfig × Backtest)) : ℕ :=
  (starts.map (fun e => (BacktestEngine.left (run B e.1 e.2)).engine.closedPositions.length)).sum

/-- The windows count as many trades as the aggregate, which are its wins and losses and the round trips of the
out-of-sample backtests. -/
def CountsAgree (B : Bench) (config : BacktestConfig) (dates : List WindowDates) (w : Backtest)
    (r : WalkForwardResult) : Prop :=
  (r.windows.map (·.oosTradeCount)).sum = r.aggregatedOosMetrics.totalTrades ∧
    r.aggregatedOosMetrics.totalTrades = r.aggregatedOosMetrics.winningTrades + r.aggregatedOosMetrics.losingTrades ∧
    r.aggregatedOosMetrics.totalTrades = roundTrips B (oosStarts B config dates w)

/-- A window reports the out-of-sample backtest from a state. -/
def Reports (B : Bench) (window : WalkForwardWindow) (start : BacktestConfig × Backtest) : Prop :=
  ∃ r w' periodStart periodEnd, run B start.1 start.2 = .ok r w' ∧ window.oosTradeCount = r.totalTrades ∧
    window.oosMetrics = r.metrics.getD (emptyMetrics periodStart periodEnd)

theorem run_eq_ok (B : Bench) (config : BacktestConfig) (w : Backtest) :
    ∃ r, run B config w = .ok r (BacktestEngine.left (run B config w)) := by
  obtain ⟨r, w', hrun⟩ := run_returns B config w
  rw [hrun]
  exact ⟨r, rfl⟩

/-- The windows report the out-of-sample backtests in their order. -/
theorem runWindows_reports (B : Bench) (config : BacktestConfig) (dates : List WindowDates) :
    ∀ (index : ℕ) (w : Backtest), wp (runWindows B config index dates)
      (fun windows _ => List.Forall₂ (Reports B) windows (oosStarts B config dates w)) (fun _ _ => False) w := by
  induction dates with
  | nil => exact fun _ _ => .nil
  | cons dates rest ih =>
    intro index w
    obtain ⟨isResult, his⟩ := run_eq_ok B (periodConfig config dates.isStart dates.isEnd) w
    obtain ⟨oosResult, hoos⟩ := run_eq_ok B (periodConfig config dates.oosStart dates.oosEnd)
      (BacktestEngine.left (run B (periodConfig config dates.isStart dates.isEnd) w))
    unfold runWindows runWindow
    rw [wp_bind, wp_bind, wp_eq_of_ok his, wp_bind, wp_eq_of_ok hoos, wp_pure, wp_bind]
    refine wp_mono (ih (index + 1) _) (fun windows w' hwindows => ?_) fun _ _ h => h
    rw [wp_pure]
    exact .cons ⟨oosResult, _, _, _, hoos, rfl, rfl⟩ hwindows

/-- The counts of a window: in the metrics at most half of the trades, and no trades exactly if nothing enters. -/
theorem Reports.counts {B : Bench} {math : DecimalMath} {window : WalkForwardWindow}
    {start : BacktestConfig × Backtest} (h : Reports (B.withMetrics math) window start) :
    2 * window.oosMetrics.totalTrades ≤ window.oosTradeCount ∧
      window.oosMetrics.totalTrades = window.oosMetrics.winningTrades + window.oosMetrics.losingTrades ∧
      (window.oosTradeCount = 0 ↔ NoEntry (B.withMetrics math) start.1 start.2) := by
  obtain ⟨r, w', periodStart, periodEnd, hrun, hcount, hmetrics⟩ := h
  have hhalved : Halved r := wp_of_ok (run_halved math start.2) hrun
  rw [hcount, hmetrics]
  have hzero : r.totalTrades = 0 ↔ NoEntry (B.withMetrics math) start.1 start.2 := by
    rw [hhalved.length, List.length_eq_zero_iff]
    constructor
    · intro htrades
      by_contra hentry
      exact wp_of_ok (run_trades_ne_nil hentry) hrun htrades
    · intro hnone
      exact (wp_of_ok hnone.run hrun).2
  cases hm : r.metrics with
  | none => exact ⟨Nat.zero_le _, rfl, hzero⟩
  | some m => exact ⟨hhalved.half m hm, hhalved.sum m hm, hzero⟩

/-- Counts of which each is at least twice another have the sum of those only if they are all zero. -/
theorem sum_eq_iff_of_two_mul_le {α : Type} {xs : List α} {f g : α → ℕ} (h : ∀ x ∈ xs, 2 * g x ≤ f x) :
    (xs.map f).sum = (xs.map g).sum ↔ ∀ x ∈ xs, f x = 0 := by
  have htwice : 2 * (xs.map g).sum ≤ (xs.map f).sum := by
    rw [← List.sum_map_mul_left]
    exact List.sum_le_sum h
  constructor
  · intro hsum x hx
    have hle := List.single_le_sum (fun _ _ => Nat.zero_le _) (f x) (List.mem_map_of_mem hx)
    omega
  · intro hzero
    have hsum : (xs.map f).sum = 0 := List.sum_eq_zero fun n hn => by
      obtain ⟨x, hx, rfl⟩ := List.mem_map.1 hn
      exact hzero x hx
    omega

theorem forall_mem_iff_of_forall₂ {α β : Type} {R : α → β → Prop} {p : α → Prop} {q : β → Prop}
    (hR : ∀ x y, R x y → (p x ↔ q y)) {xs : List α} {ys : List β} (h : List.Forall₂ R xs ys) :
    (∀ x ∈ xs, p x) ↔ ∀ y ∈ ys, q y := by
  induction h with
  | nil => exact iff_of_true nofun nofun
  | cons hxy _ ih => rw [List.forall_mem_cons, List.forall_mem_cons, hR _ _ hxy, ih]

/-- The aggregate sums the counts of the windows. -/
theorem aggregateOosMetrics_counts (windows : List WalkForwardWindow) (fallbackStart fallbackEnd : ℤ) :
    (aggregateOosMetrics windows fallbackStart fallbackEnd).totalTrades = totalOf (·.totalTrades) windows ∧
      (aggregateOosMetrics windows fallbackStart fallbackEnd).winningTrades = totalOf (·.winningTrades) windows ∧
      (aggregateOosMetrics windows fallbackStart fallbackEnd).losingTrades = totalOf (·.losingTrades) windows := by
  cases windows with
  | nil => exact ⟨rfl, rfl, rfl⟩
  | cons window windows =>
    unfold aggregateOosMetrics
    rw [List.head?_cons, List.getLast?_cons]
    exact ⟨rfl, rfl, rfl⟩

/-- Backtests without an entry close no position. -/
theorem roundTrips_eq_zero {B : Bench} {starts : List (BacktestConfig × Backtest)}
    (h : ∀ start ∈ starts, NoEntry B start.1 start.2) : roundTrips B starts = 0 := by
  refine List.sum_eq_zero fun n hn => ?_
  obtain ⟨start, hstart, rfl⟩ := List.mem_map.1 hn
  obtain ⟨r, hrun⟩ := run_eq_ok B start.1 start.2
  rw [(wp_of_ok (h start hstart).run hrun).1]
  rfl

/-- An analysis aggregates the windows that it reports. -/
theorem analyse_spec (B : Bench) (config : BacktestConfig) (windowMonths oosMonths : ℕ) (dates : List WindowDates)
    (w : Backtest) :
    wp (analyse B config windowMonths oosMonths dates) (fun r _ =>
      List.Forall₂ (Reports B) r.windows (oosStarts B config dates w) ∧
        r.aggregatedOosMetrics = aggregateOosMetrics r.windows config.startDate config.endDate)
      (fun _ _ => False) w := by
  unfold analyse
  rw [wp_bind]
  exact wp_mono (runWindows_reports B config dates 0 w) (fun windows _ hw => ⟨hw, rfl⟩) fun _ _ h => h

/-- The trade counts of an analysis agree if and only if no signal enters a position in an out-of-sample backtest. -/
theorem countsAgree_iff {B : Bench} {math : DecimalMath} {config : BacktestConfig}
    {shift : PyDate → ℕ → Except Exn PyDate} {windowMonths oosMonths : ℕ}
    {dates : List WindowDates} {w w' : Backtest} {r : WalkForwardResult}
    (h : Runs (B.withMetrics math) config shift windowMonths oosMonths dates w r w') :
    CountsAgree (B.withMetrics math) config dates w r ↔
      ∀ start ∈ oosStarts (B.withMetrics math) config dates w, NoEntry (B.withMetrics math) start.1 start.2 := by
  obtain ⟨hreports, haggregate⟩ := wp_of_ok (analyse_spec (B.withMetrics math) config windowMonths oosMonths dates w)
    h.analysed
  obtain ⟨htotal, hwinning, hlosing⟩ := aggregateOosMetrics_counts r.windows config.startDate config.endDate
  rw [← haggregate] at htotal hwinning hlosing
  have hcounts : ∀ window ∈ r.windows, 2 * window.oosMetrics.totalTrades ≤ window.oosTradeCount ∧
      window.oosMetrics.totalTrades = window.oosMetrics.winningTrades + window.oosMetrics.losingTrades :=
    (forall_mem_iff_of_forall₂ (q := fun _ => True)
      (fun _ _ hreport => iff_true_intro ⟨hreport.counts.1, hreport.counts.2.1⟩) hreports).2 fun _ _ => trivial
  have hentries : (∀ window ∈ r.windows, window.oosTradeCount = 0) ↔
      ∀ start ∈ oosStarts (B.withMetrics math) config dates w, NoEntry (B.withMetrics math) start.1 start.2 :=
    forall_mem_iff_of_forall₂ (fun _ _ hreport => hreport.counts.2.2) hreports
  rw [← hentries]
  have hsum := sum_eq_iff_of_two_mul_le fun window hwindow => (hcounts window hwindow).1
  unfold CountsAgree
  rw [htotal, hwinning, hlosing]
  unfold totalOf
  constructor
  · intro hagree
    exact hsum.1 hagree.1
  · intro hzero
    have hagree := hsum.2 hzero
    have hnone : (r.windows.map (·.oosTradeCount)).sum = 0 := List.sum_eq_zero fun n hn => by
      obtain ⟨window, hwindow, rfl⟩ := List.mem_map.1 hn
      exact hzero window hwindow
    refine ⟨hagree, ?_, ?_⟩
    · rw [← List.sum_map_add]
      exact congrArg List.sum (List.map_congr_left fun window hwindow => (hcounts window hwindow).2)
    · rw [← hagree, hnone, roundTrips_eq_zero (hentries.1 hzero)]

/-! ## A round trip -/

/-- A fall on the third day of trading of 2024. -/
def january : HistoricalDataLoader where
  rows := [
    { symbol := "A", date := 19724, openPrice := 1000, high := 1000, low := 1000, close := 1000, volume := 10 },
    { symbol := "A", date := 19725, openPrice := 1000, high := 1000, low := 1000, close := 1000, volume := 10 },
    { symbol := "A", date := 19726, openPrice := 900, high := 900, low := 900, close := 900, volume := 10 }]
  sorted := by decide +kernel
  unique := by decide +kernel

/-- A bench on these days with a BUY decided on the first of them. -/
def januaryBench : Bench :=
  { replayBench january [buyDecision 1 "A" 19724] {} with riskFreeRatePct := 0 }

/-- The years 2023 and 2024, of which the second is out of sample. -/
def twoYears : List WindowDates :=
  [⟨⟨2023, 1, 1, by decide⟩, ⟨2023, 12, 31, by decide⟩, ⟨2024, 1, 1, by decide⟩, ⟨2024, 12, 31, by decide⟩⟩]

def twoYearsConfig : BacktestConfig := replayConfig 19358 20088 ["A"]

/-- The sum of the trade counts of the windows, and the trades of the aggregate. -/
def countsOf : EStateM.Result Exn Backtest WalkForwardResult → Option (ℕ × ℕ)
  | .ok r _ => some ((r.windows.map (·.oosTradeCount)).sum, r.aggregatedOosMetrics.totalTrades)
  | .error _ _ => none

/-- The position that is bought and stopped out makes two trades of the window and one of the aggregate. -/
theorem runs_twoYears : ∃ r w', Runs (januaryBench.withMetrics plainMath) twoYearsConfig addMonths 12 12 twoYears
      ⟨{}, newBroker januaryBench twoYearsConfig⟩ r w' ∧
    (r.windows.map (·.oosTradeCount)).sum = 2 ∧ r.aggregatedOosMetrics.totalTrades = 1 := by
  have hval : countsOf (analyse (januaryBench.withMetrics plainMath) twoYearsConfig 12 12 twoYears
      ⟨{}, newBroker januaryBench twoYearsConfig⟩) = some (2, 1) := by decide +kernel
  cases hrun : analyse (januaryBench.withMetrics plainMath) twoYearsConfig 12 12 twoYears
      ⟨{}, newBroker januaryBench twoYearsConfig⟩ with
  | error e w =>
    rw [hrun] at hval
    cases hval
  | ok r w' =>
    rw [hrun] at hval
    simp only [countsOf, Option.some.injEq, Prod.mk.injEq] at hval
    refine ⟨r, w', ⟨⟨⟨2023, 1, 1, by decide⟩, ⟨2024, 12, 31, by decide⟩, ?_, ?_, 2, ?_⟩, hrun⟩, hval⟩
    · decide +kernel
    · decide +kernel
    · decide +kernel

/-- The window counts a round trip twice. -/
theorem not_countsAgree_roundTrip : ∃ r w',
    Runs (januaryBench.withMetrics plainMath) twoYearsConfig addMonths 12 12 twoYears
      ⟨{}, newBroker januaryBench twoYearsConfig⟩ r w' ∧
    ¬ CountsAgree (januaryBench.withMetrics plainMath) twoYearsConfig twoYears
      ⟨{}, newBroker januaryBench twoYearsConfig⟩ r := by
  obtain ⟨r, w', hruns, hwindows, htotal⟩ := runs_twoYears
  refine ⟨r, w', hruns, fun h => ?_⟩
  have hsum := h.1
  rw [hwindows, htotal] at hsum
  cases hsum

/-- A signal enters the position of the round trip. -/
theorem countsAgree_iff_twoYears : ∃ start ∈ oosStarts (januaryBench.withMetrics plainMath) twoYearsConfig twoYears
      ⟨{}, newBroker januaryBench twoYearsConfig⟩, ¬ NoEntry (januaryBench.withMetrics plainMath) start.1 start.2 := by
  obtain ⟨r, w', hruns, hwindows, htotal⟩ := runs_twoYears
  by_contra hnone
  push Not at hnone
  have hsum := ((countsAgree_iff hruns).2 hnone).1
  rw [hwindows, htotal] at hsum
  cases hsum

end WalkForwardAnalyzer

end TradingAgent
