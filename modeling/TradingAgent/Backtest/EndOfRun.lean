/-
The end of a run. What is still held after the last trading day is closed with the reason
`backtest_end`, which is no member of the exit reasons: the trade record of the first such close is
refused after the broker has sold and the position has moved, and the run fails. A run that ends
normally has closed nothing.
-/
import TradingAgent.Backtest.Frame
import TradingAgent.Lib.Agree

namespace TradingAgent

open Wp

namespace BacktestEngine

variable (B : Bench) (config : BacktestConfig)

/-! ## What the end of a run is meant to reach -/

/-- Every BUY is matched by exactly one later SELL of the same symbol and quantity, and every SELL by
one BUY: the pairs list the places of all BUYs and of all SELLs once each. -/
def Matched (trades : List BacktestTradeRecord) : Prop :=
  ∃ pairs : List (ℕ × ℕ),
    (pairs.map Prod.fst).Perm ((List.range trades.length).filter (fun i =>
      trades[i]?.any (fun t => t.side = .buy))) ∧
    (pairs.map Prod.snd).Perm ((List.range trades.length).filter (fun i =>
      trades[i]?.any (fun t => t.side = .sell))) ∧
    ∀ p ∈ pairs, p.1 < p.2 ∧ ∃ b s, trades[p.1]? = some b ∧ trades[p.2]? = some s ∧
      b.symbol = s.symbol ∧ b.quantity = s.quantity ∧ b.tradeDate ≤ s.tradeDate

/-- The run is complete, nothing is left in the engine or the broker, the trades are round trips and
the closed positions are the BUYs. -/
structure ClosedOut (r : BacktestResult) (w : Backtest) : Prop where
  completed : r.status = .completed
  engineEmpty : w.engine.positions.items = []
  brokerEmpty : w.broker.positions.values.filter (fun p => p.quantity > 0) = []
  matched : Matched r.trades
  even : Even r.totalTrades
  closedAreBuys : (w.engine.closedPositions.map (fun p => (p.symbol, p.quantity, p.entryPrice, p.entryDate))).Perm
    ((r.trades.filter (fun t => t.side = .buy)).map (fun t => (t.symbol, t.quantity, t.price, t.tradeDate)))

/-- The run up to the end of its last trading day. -/
def runLoop : M PUnit := do
  prepare B config
  runAll (loopSteps B config (tradingDates B config))

/-- The run gets through its last trading day in a state. -/
def LoopEnds (w w₁ : Backtest) : Prop :=
  config.symbols ≠ [] ∧ tradingDates B config ≠ [] ∧ runLoop B config w = .ok ⟨⟩ w₁

/-- If positions are still held after the last trading day, the run closes everything. -/
def ClosesEverything (w : Backtest) : Prop :=
  ∀ w₁, LoopEnds B config w w₁ → w₁.engine.positions.items ≠ [] →
    ∃ r w', run B config w = .ok r w' ∧ ClosedOut r w'

/-! ## The forced close -/

/-- A forced close does nothing for a symbol without a price and raises for any other. -/
theorem executeExit_backtest_end (symbol : String) (lastDate : ℤ) (w : Backtest) :
    wp (executeExit B symbol lastDate "backtest_end") (fun _ w' => w' = w) (fun _ _ => True) w := by
  unfold executeExit
  rw [wp_bind, wp_get]
  cases w.engine.positions.get? symbol with
  | none => rfl
  | some pos =>
    cases B.loader.getClosePrice symbol lastDate with
    | none => rfl
    | some close =>
      dsimp only
      cases OrderRequest.make? symbol .sell .limit pos.quantity (some close)
          ("backtest_exit_" ++ "backtest_end") with
      | none => trivial
      | some order =>
        dsimp only
        rw [wp_bind]
        refine wp_mono (wp_true _ w) (fun r w' _ => ?_) (fun _ _ _ => trivial)
        have hreason : ExitReason.ofValue? "backtest_end" = none := by decide
        rw [wp_bind, wp_modifyEngine, hreason]
        trivial

/-- A forced close of everything that ends normally has changed nothing. -/
theorem forceCloseAll_spec (lastDate : ℤ) (w : Backtest) :
    wp (forceCloseAll B lastDate) (fun _ w' => w' = w) (fun _ _ => True) w := by
  unfold forceCloseAll
  rw [wp_bind, wp_get]
  refine wp_forM (I := fun w' => w' = w) (fun symbol _ w' hw' => ?_) rfl
  rw [hw']
  exact executeExit_backtest_end B symbol lastDate w

theorem keeps_calculateMetrics {I : Backtest → Prop} : Keeps I (calculateMetrics B config) := by
  unfold calculateMetrics
  refine keeps_bind keeps_get fun _ => ?_
  dsimp only
  split
  · exact keeps_pure _
  · exact keeps_map _ (keeps_liftExcept _)

/-- A forced close keeps what every exit keeps. -/
theorem keeps_forceCloseAll {I : Backtest → Prop}
    (hexit : ∀ symbol tradingDate exitReason, Keeps I (executeExit B symbol tradingDate exitReason))
    (lastDate : ℤ) : Keeps I (forceCloseAll B lastDate) := by
  unfold forceCloseAll
  exact keeps_bind keeps_get fun _ => keeps_forM fun symbol _ => hexit symbol lastDate _

/-- The end of a run keeps what every exit keeps, and the result carries the trades of the engine. -/
theorem finish_keeps {I : Backtest → Prop}
    (hexit : ∀ symbol tradingDate exitReason, Keeps I (executeExit B symbol tradingDate exitReason))
    (lastDate : ℤ) {w : Backtest} (h : I w) :
    wp (finish B config lastDate) (fun r w' => I w' ∧ r.trades = w'.engine.trades) (fun _ w' => I w') w := by
  have hrest : ∀ w, I w → wp (do
      let metrics ← calculateMetrics B config
      let e := (← get).engine
      pure ({ config, status := .completed, metrics, trades := e.trades, totalTrades := e.trades.length } :
        BacktestResult)) (fun r w' => I w' ∧ r.trades = w'.engine.trades) (fun _ w' => I w') w := by
    intro w h
    rw [wp_bind]
    refine wp_mono (keeps_calculateMetrics B config (I := I) w h) (fun _ w' h' => ?_) fun _ _ h => h
    rw [wp_bind, wp_get, wp_pure]
    exact ⟨h', rfl⟩
  unfold finish
  rw [wp_bind, wp_get, wp_ite]
  split
  · rw [wp_bind]
    exact wp_mono (keeps_forceCloseAll B hexit lastDate w h) (fun _ w' h' => hrest w' h') fun _ _ h => h
  · exact hrest w h

/-- A run from what it prepares, through its loop, to its end. Where a step raises only `J` is left. The result
carries the trades of the engine, or none where there was nothing to run. -/
theorem run_rule {P J : Backtest → Prop} (hweaken : ∀ w, P w → J w)
    (hexit : ∀ symbol tradingDate exitReason, Keeps P (executeExit B symbol tradingDate exitReason))
    (hloop : ∀ dates w, P w → wp (runAll (loopSteps B config dates)) (fun _ w' => P w') (fun _ w' => J w') w)
    {w₀ : Backtest} (hprepare : wp (prepare B config) (fun _ w => P w) (fun _ w => J w) w₀) :
    wp (run B config) (fun r w => J w ∧ (r.trades = w.engine.trades ∨ r.trades = [])) (fun _ _ => False) w₀ := by
  have hbody : wp (runBody B config) (fun r w => J w ∧ (r.trades = w.engine.trades ∨ r.trades = []))
      (fun _ w => J w) w₀ := by
    unfold runBody
    rw [wp_bind]
    refine wp_mono hprepare (fun _ w₁ h₁ => ?_) fun _ _ h => h
    cases (tradingDates B config).getLast? with
    | none => exact ⟨hweaken w₁ h₁, .inr rfl⟩
    | some lastDate =>
      dsimp only
      rw [wp_ite]
      split
      · exact ⟨hweaken w₁ h₁, .inr rfl⟩
      · rw [wp_bind]
        refine wp_mono (hloop _ w₁ h₁) (fun _ w₂ h₂ => ?_) fun _ _ h => h
        exact wp_mono (finish_keeps B config hexit lastDate h₂)
          (fun _ w₃ h₃ => ⟨hweaken w₃ h₃.1, .inl h₃.2⟩) fun _ w₃ h₃ => hweaken w₃ h₃
  unfold run
  rw [wp_tryCatch]
  exact wp_mono hbody (fun _ _ h => h) fun _ w h => ⟨h, .inl rfl⟩

/-- A normal end keeps the positions that the loop left. -/
theorem finish_spec (lastDate : ℤ) (w : Backtest) :
    wp (finish B config lastDate) (fun _ w' => w' = w) (fun _ _ => True) w := by
  have hrest : wp (do
      let metrics ← calculateMetrics B config
      let e := (← get).engine
      pure ({ config, status := .completed, metrics, trades := e.trades, totalTrades := e.trades.length } :
        BacktestResult)) (fun _ w' => w' = w) (fun _ _ => True) w := by
    rw [wp_bind]
    exact wp_mono (keeps_calculateMetrics B config (I := fun w' => w' = w) w rfl) (fun _ _ h => h)
      (fun _ _ _ => trivial)
  unfold finish
  rw [wp_bind, wp_get, wp_ite]
  split
  · rw [wp_bind]
    refine wp_mono (forceCloseAll_spec B lastDate w) (fun _ w' hw' => ?_) (fun _ _ h => h)
    rw [hw']; exact hrest
  · exact hrest

/-- A run whose loop has ended either fails or leaves everything as the loop left it. -/
theorem run_of_loopEnds {w w₁ : Backtest} (h : LoopEnds B config w w₁) :
    ∃ r w', run B config w = .ok r w' ∧ (r.status = .failed ∨ w' = w₁) := by
  obtain ⟨hsym, hdates, hloop⟩ := h
  have hbody : wp (runBody B config) (fun _ w' => w' = w₁) (fun _ _ => True) w := by
    have hpre := wp_self (runLoop B config) w
    rw [hloop] at hpre
    unfold runLoop at hpre
    rw [wp_bind] at hpre
    unfold runBody
    rw [wp_bind]
    refine wp_mono hpre (fun _ w₂ h₂ => ?_) (fun _ _ _ => trivial)
    cases hlast : (tradingDates B config).getLast? with
    | none => exact absurd (List.getLast?_eq_none_iff.1 hlast) hdates
    | some lastDate =>
      dsimp only
      rw [if_neg hsym, wp_bind]
      refine wp_mono h₂ (fun _ w₃ h₃ => ?_) (fun _ _ _ => trivial)
      cases h₃
      exact finish_spec B config lastDate w₁
  have hrun : wp (run B config) (fun r w' => r.status = .failed ∨ w' = w₁) (fun _ _ => False) w := by
    unfold run
    rw [wp_tryCatch]
    exact wp_mono hbody (fun _ _ h => .inr h) (fun e w' _ => .inl rfl)
  unfold wp at hrun
  split at hrun
  · rename_i r w' heq; exact ⟨r, w', heq, hrun⟩
  · exact absurd hrun id

/-- The end of a run closes everything only where there is nothing to close: whenever positions are
held after the last trading day, the run fails or leaves them. -/
theorem closesEverything_iff (w : Backtest) :
    ClosesEverything B config w ↔
      ∀ w₁, LoopEnds B config w w₁ → w₁.engine.positions.items = [] := by
  constructor
  · intro h w₁ hloop
    by_contra hheld
    obtain ⟨r, w', hrun, hclosed⟩ := h w₁ hloop hheld
    obtain ⟨r', w'', hrun', hend⟩ := run_of_loopEnds B config hloop
    rw [hrun] at hrun'
    cases hrun'
    rcases hend with hfail | heq
    · have := hclosed.completed
      rw [hfail] at this; cases this
    · exact hheld (heq ▸ hclosed.engineEmpty)
  · intro h w₁ hloop hheld
    exact absurd (h w₁ hloop) hheld

/-- Two days of one symbol at 1000 won. -/
def quietDays : HistoricalDataLoader where
  rows := [
    { symbol := "A", date := 1, openPrice := 1000, high := 1000, low := 1000, close := 1000, volume := 10 },
    { symbol := "A", date := 2, openPrice := 1000, high := 1000, low := 1000, close := 1000, volume := 10 }]
  sorted := by decide
  unique := by decide

/-- `A` is bought on the second and last day and has a close on it. The broker sells it, the engine
moves it to the closed positions, and the run fails with a BUY and no SELL among its trades. -/
theorem quietDays_not_closed :
    let B := replayBench quietDays [buyDecision 1 "A" 1] {}
    ¬ ClosesEverything B (replayConfig 1 2 ["A"]) ⟨{}, SimulatedBroker.new B.brokerConfig⟩ ∧
    (match run B (replayConfig 1 2 ["A"]) ⟨{}, SimulatedBroker.new B.brokerConfig⟩ with
      | .ok r w => some (r.status, r.trades.map (·.side), r.errorMessage,
          w.engine.positions.items.length, w.engine.closedPositions.length)
      | .error _ _ => none) =
      some (.failed, [.buy], some (.validationError "BacktestTradeRecord" "exit_reason"), 0, 1) := by
  intro B
  have hend : (match run B (replayConfig 1 2 ["A"]) ⟨{}, SimulatedBroker.new B.brokerConfig⟩ with
      | .ok r w => some (r.status, r.trades.map (·.side), r.errorMessage,
          w.engine.positions.items.length, w.engine.closedPositions.length)
      | .error _ _ => none) =
      some (.failed, [.buy], some (.validationError "BacktestTradeRecord" "exit_reason"), 0, 1) := by
    decide +kernel
  refine ⟨fun h => ?_, hend⟩
  have hheld : (match runLoop B (replayConfig 1 2 ["A"]) ⟨{}, SimulatedBroker.new B.brokerConfig⟩ with
      | .ok _ w₁ => w₁.engine.positions.items.length
      | .error _ _ => 0) = 1 := by decide +kernel
  cases hloop : runLoop B (replayConfig 1 2 ["A"]) ⟨{}, SimulatedBroker.new B.brokerConfig⟩ with
  | error e w₁ => rw [hloop] at hheld; cases hheld
  | ok a w₁ =>
    rw [hloop] at hheld
    have hne : w₁.engine.positions.items ≠ [] := fun hnil => by
      dsimp only at hheld; rw [hnil] at hheld; cases hheld
    obtain ⟨r, w', hrun, hclosed⟩ := h w₁ ⟨by decide, by decide, hloop⟩ hne
    rw [hrun] at hend
    have hfailed : r.status = .failed := congrArg (fun x => x.elim .pending Prod.fst) hend
    have := hclosed.completed
    rw [hfailed] at this; cases this

end BacktestEngine

end TradingAgent
