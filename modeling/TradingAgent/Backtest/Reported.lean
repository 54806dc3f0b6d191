/-
What a completed run reports. The metrics are computed from the snapshots by other loops than the ones
that recorded them; on a fresh broker the first snapshot is the initial capital, the recorded peaks are
the running maxima from it, the last snapshot is the broker's value at the end of the last day, and a
run that completes has closed nothing after it. The metrics are those of the exact calculator: the
numbers of the run are taken to have no more digits than the decimal context keeps.
-/
import TradingAgent.Backtest.EndOfRun
import TradingAgent.Report.Metrics

namespace TradingAgent

open Wp

namespace BacktestEngine

/-! ## Snapshots of a run -/

/-- The total values of the snapshots so far. -/
def totals (w : Backtest) : List Decimal := w.engine.snapshots.map (·.totalValue)

/-- Nothing held, nothing pending, and the capital in cash. -/
structure Untouched (capital : Decimal) (w : Backtest) : Prop where
  positions : w.engine.positions = Dict.empty
  pending : w.engine.pendingSignals = []
  cash : w.broker.cash = capital
  holdings : w.broker.positions = Dict.empty

/-- The snapshots after some days on a capital: one for each day, with the running peaks and drops from
the capital; the first has the capital as its value, the last the value of the broker. -/
structure Recorded (capital : Decimal) (days : List ℤ) (w : Backtest) : Prop where
  dates : w.engine.snapshots.map (·.snapshotDate) = days
  peak : w.engine.peakValue = Drawdown.peak capital (totals w)
  drawdowns : w.engine.snapshots.map (·.drawdownPct) = (Drawdown.drops capital (totals w)).map quantize2
  first : ∀ v, (totals w).head? = some v → v = capital
  current : ∀ v, (totals w).getLast? = some v → v = w.broker.getTotalValue
  untouched : w.engine.snapshots = [] → Untouched capital w

variable {capital : Decimal} {w : Backtest}

theorem Untouched.totalValue (h : Untouched capital w) : w.broker.getTotalValue = capital := by
  unfold SimulatedBroker.getTotalValue
  rw [h.holdings, h.cash]
  exact add_zero capital

variable (B : Bench) (config : BacktestConfig)

/-! ## The first day -/

theorem startDay_untouched (h : Untouched capital w) (tradingDate : ℤ) :
    wp (startDay B tradingDate) (fun _ w' => Untouched capital w') (fun _ _ => True) w := by
  unfold startDay
  rw [wp_bind, wp_modifyEngine, wp_onBroker]
  unfold SimulatedBroker.setCurrentDate
  rw [wp_modify]
  refine ⟨h.positions, h.pending, h.cash, ?_⟩
  dsimp only
  rw [h.holdings]; rfl

theorem checkExits_untouched (h : Untouched capital w) (tradingDate : ℤ) :
    wp (checkExits B config tradingDate) (fun _ w' => Untouched capital w') (fun _ _ => True) w := by
  unfold checkExits
  rw [wp_bind, wp_get, h.positions]
  exact h

theorem executePendingSignals_untouched (h : Untouched capital w) (tradingDate : ℤ) :
    wp (executePendingSignals B config tradingDate) (fun _ w' => Untouched capital w')
      (fun _ _ => True) w := by
  unfold executePendingSignals
  rw [wp_bind, wp_get, h.pending]
  exact ⟨h.positions, rfl, h.cash, h.holdings⟩

/-! ## One day -/

/-- Trading leaves the snapshots and the peak. -/
def Holding (snaps : List PortfolioSnapshot) (peak : Decimal) (w : Backtest) : Prop :=
  w.engine.snapshots = snaps ∧ w.engine.peakValue = peak

theorem holding_offTrading (snaps : List PortfolioSnapshot) (peak : Decimal) :
    OffTrading (Holding snaps peak) := fun _ _ _ hs hp h => ⟨hs.trans h.1, hp.trans h.2⟩

theorem holding_orderStable (side : OrderSide) (snaps : List PortfolioSnapshot) (peak : Decimal) :
    OrderStable B side (Holding snaps peak) := fun _ _ _ _ _ _ _ h _ => h

theorem keeps_executePendingSignals {I : Backtest → Prop} (hbuy : OrderStable B .buy I) (hI : OffTrading I)
    (hpend : ∀ w ps, I w → I { w with engine := { w.engine with pendingSignals := ps } })
    (tradingDate : ℤ) : Keeps I (executePendingSignals B config tradingDate) := by
  unfold executePendingSignals
  exact keeps_bind keeps_get fun _ => keeps_bind (keeps_modify fun w h => hpend w _ h) fun _ =>
    keeps_forM fun s _ => keeps_executeSignal B config hbuy hI tradingDate s

/-- Before its snapshot a day leaves the snapshots and the peak. -/
theorem tradingSteps_holding {snapshots : List PortfolioSnapshot} {peak : Decimal} (h : Holding snapshots peak w)
    (tradingDate : ℤ) :
    wp (runAll (tradingSteps B config tradingDate)) (fun _ w' => Holding snapshots peak w') (fun _ _ => True) w := by
  have hoff := holding_offTrading snapshots peak
  have hexits := keeps_checkExits B config (holding_orderStable B _ _ _) hoff tradingDate
  have hpending := keeps_executePendingSignals B config (holding_orderStable B _ _ _) hoff (fun _ _ h => h)
    tradingDate
  unfold tradingSteps
  rw [wp_runAll_cons]
  refine wp_mono (show wp (startDay B tradingDate) (fun _ w' => Holding snapshots peak w') (fun _ _ => True) w
    from h) (fun _ w₁ h₁ => ?_) (fun _ _ _ => trivial)
  rw [wp_runAll_cons]
  refine wp_mono (hexits w₁ h₁) (fun _ w₂ h₂ => ?_) (fun _ _ _ => trivial)
  rw [wp_runAll_cons]
  refine wp_mono (hpending w₂ h₂) (fun _ w₃ h₃ => ?_) (fun _ _ _ => trivial)
  rw [wp_runAll_cons]
  exact wp_mono (keeps_generateSignals B config (fun _ _ h => h) tradingDate w₃ h₃) (fun _ _ h => h)
    (fun _ _ _ => trivial)

/-- On the first day nothing is held or pending, so that signals are raised and nothing is traded. -/
theorem tradingSteps_untouched (h : Untouched capital w) (tradingDate : ℤ) :
    wp (runAll (tradingSteps B config tradingDate)) (fun _ w' => w'.broker.getTotalValue = capital)
      (fun _ _ => True) w := by
  unfold tradingSteps
  rw [wp_runAll_cons]
  refine wp_mono (startDay_untouched B h tradingDate) (fun _ w₁ h₁ => ?_) (fun _ _ _ => trivial)
  rw [wp_runAll_cons]
  refine wp_mono (checkExits_untouched B config h₁ tradingDate) (fun _ w₂ h₂ => ?_) (fun _ _ _ => trivial)
  rw [wp_runAll_cons]
  refine wp_mono (executePendingSignals_untouched B config h₂ tradingDate) (fun _ w₃ h₃ => ?_)
    (fun _ _ _ => trivial)
  rw [wp_runAll_cons]
  exact wp_mono (keeps_generateSignals B config (I := fun w' => w'.broker.getTotalValue = capital)
    (fun _ _ h => h) tradingDate w₃ h₃.totalValue) (fun _ _ h => h) (fun _ _ _ => trivial)

/-- Before its snapshot a day leaves the snapshots and the peak, and the first day the value too. -/
theorem tradingSteps_spec (h : w.engine.snapshots = [] → Untouched capital w) (tradingDate : ℤ) :
    wp (runAll (tradingSteps B config tradingDate))
      (fun _ w' => Holding w.engine.snapshots w.engine.peakValue w' ∧
        (w.engine.snapshots = [] → w'.broker.getTotalValue = capital)) (fun _ _ => True) w := by
  have hhold := tradingSteps_holding B config (w := w) ⟨rfl, rfl⟩ tradingDate
  by_cases hsnaps : w.engine.snapshots = []
  · refine wp_mono (wp_and hhold (tradingSteps_untouched B config (h hsnaps) tradingDate)) ?_
      (fun _ _ _ => trivial)
    exact fun _ w' h' => ⟨h'.1, fun _ => h'.2⟩
  · exact wp_mono hhold (fun _ w' h' => ⟨h', fun h0 => absurd h0 hsnaps⟩) (fun _ _ _ => trivial)

/-- The snapshot of a day extends the record by the running peak and drop at the broker's value. -/
theorem recordSnapshot_recorded {days : List ℤ} {w₀ : Backtest} (h : Recorded capital days w₀)
    (hold : Holding w₀.engine.snapshots w₀.engine.peakValue w)
    (hfirst : w₀.engine.snapshots = [] → w.broker.getTotalValue = capital) (tradingDate : ℤ) :
    wp (recordSnapshot B tradingDate) (fun _ w' => Recorded capital (days ++ [tradingDate]) w')
      (fun _ _ => True) w := by
  unfold recordSnapshot
  rw [wp_bind, wp_get, wp_modifyEngine]
  obtain ⟨hsnaps, hpeak⟩ := hold
  have hpeak' : w.engine.peakValue = Drawdown.peak capital (totals w₀) := hpeak.trans h.peak
  constructor
  · dsimp only
    rw [List.map_append, hsnaps, h.dates]; rfl
  -- the running peak of the values so far
  · unfold totals
    dsimp only
    rw [List.map_append, hsnaps]
    exact (congrArg (max · _) hpeak').trans (Drawdown.peak_concat capital (totals w₀) _).symm
  · unfold totals
    dsimp only
    rw [List.map_append, List.map_append, hsnaps, h.drawdowns]
    refine Eq.trans ?_ (congrArg (List.map quantize2) (Drawdown.drops_concat capital (totals w₀) _).symm)
    rw [List.map_append, hpeak']
    refine congrArg (_ ++ ·) (congrArg (fun d => [d]) ?_)
    unfold Drawdown.drop
    dsimp only
    split
    · rfl
    · exact PerformanceCalculator.quantize2_zero.symm
  · intro v hv
    unfold totals at hv
    dsimp only at hv
    rw [List.map_append, hsnaps] at hv
    -- the first total is that of the first day, on which nothing was traded
    by_cases hnil : w₀.engine.snapshots = []
    · rw [hnil] at hv
      exact (Option.some.inj hv).symm.trans (hfirst hnil)
    · refine h.first v ?_
      rw [List.head?_append_of_ne_nil _ (fun hm => hnil (List.map_eq_nil_iff.1 hm))] at hv
      exact hv
  · intro v hv
    unfold totals at hv
    dsimp only at hv
    rw [List.map_append, List.map_cons, List.map_nil, List.getLast?_concat] at hv
    exact (Option.some.inj hv).symm
  · intro hnil
    exact absurd hnil (by simp)

theorem day_recorded {days : List ℤ} (h : Recorded capital days w) (tradingDate : ℤ) :
    wp (runAll (daySteps B config tradingDate))
      (fun _ w' => Recorded capital (days ++ [tradingDate]) w') (fun _ _ => True) w := by
  rw [daySteps_eq, wp_runAll_append]
  refine wp_mono (tradingSteps_spec B config h.untouched tradingDate) ?_ (fun _ _ _ => trivial)
  rintro _ w' ⟨hold, hfirst⟩
  rw [wp_runAll_cons]
  exact wp_mono (recordSnapshot_recorded B h hold hfirst tradingDate) (fun _ _ h => h) (fun _ _ _ => trivial)

/-- After the loop there is one snapshot for each of its days. -/
theorem days_recorded (dates : List ℤ) {days : List ℤ} (h : Recorded capital days w) :
    wp (runAll (loopSteps B config dates)) (fun _ w' => Recorded capital (days ++ dates) w')
      (fun _ _ => True) w := by
  induction dates generalizing days w with
  | nil => rw [List.append_nil]; exact h
  | cons d ds ih =>
    unfold loopSteps
    rw [List.flatMap_cons, wp_runAll_append]
    refine wp_mono (day_recorded B config h d) (fun _ w' h' => ?_) (fun _ _ _ => trivial)
    have hrest := ih h'
    rw [List.append_assoc] at hrest
    exact hrest

/-! ## The run -/

theorem prepare_recorded (e : BacktestEngine) :
    wp (prepare B config) (fun _ w' => Recorded config.initialCapital [] w') (fun _ _ => True)
      ⟨e, newBroker B config⟩ := by
  have h0 : ∀ cache, Recorded config.initialCapital []
      ⟨{ peakValue := config.initialCapital, llmReplay := cache }, newBroker B config⟩ := by
    intro cache
    refine ⟨rfl, rfl, rfl, fun v hv => ?_, fun v hv => ?_, fun _ => ⟨rfl, rfl, rfl, rfl⟩⟩
    · cases hv
    · cases hv
  unfold prepare
  rw [wp_bind, wp_modify]
  cases config.mode with
  | technical => exact h0 none
  | llmLive => exact h0 none
  | llmReplay =>
    cases B.sessionFactory with
    | none => trivial
    | some rows => exact h0 _

/-- What the metrics of a run are meant to say: the change from the initial capital to the final value
of the broker, and the largest drawdown of its snapshots. -/
def Faithful (r : BacktestResult) (w : Backtest) : Prop :=
  ∃ m, r.metrics = some m ∧
    m.totalReturnPct = quantize2
      ((w.broker.getTotalValue - config.initialCapital) / config.initialCapital * 100) ∧
    IsGreatest {d | d ∈ w.engine.snapshots.map (·.drawdownPct)} m.maxDrawdownPct

/-- The metrics computed from a complete record are faithful to it. -/
theorem faithful_of_recorded {math : DecimalMath} {days : List ℤ} (hcap : 0 < config.initialCapital)
    (hdays : days ≠ []) (hsorted : days.Pairwise (· < ·)) (h : Recorded config.initialCapital days w)
    {closed : List PositionRecord} {riskFree : Decimal} {m : PerformanceMetrics} {r : BacktestResult}
    (hm : PerformanceCalculator.calculate math closed w.engine.snapshots config.startDate config.endDate
      riskFree = .ok m) (hr : r.metrics = some m) : Faithful config r w := by
  obtain ⟨hreturn, hmdd⟩ := PerformanceCalculator.calculate_eq_ok hm
  have horder : PerformanceCalculator.sortedSnaps w.engine.snapshots = w.engine.snapshots :=
    PerformanceCalculator.sortedSnaps_eq (h.dates ▸ hsorted)
  have hne : w.engine.snapshots ≠ [] := fun hnil => hdays (by rw [← h.dates, hnil]; rfl)
  obtain ⟨first, rest, hcons⟩ := List.exists_cons_of_ne_nil hne
  have hfirst : first.totalValue = config.initialCapital :=
    h.first _ (by unfold totals; rw [hcons]; rfl)
  have hlast : (w.engine.snapshots.getLast hne).totalValue = w.broker.getTotalValue :=
    h.current _ (by unfold totals; rw [List.getLast?_map, List.getLast?_eq_some_getLast hne]; rfl)
  refine ⟨m, hr, ?_, ?_⟩
  · rw [hreturn, horder, PerformanceCalculator.totalReturn_eq (by rw [hcons]; rfl)
      (List.getLast?_eq_some_getLast hne) (hfirst ▸ hcap.ne'), hlast, hfirst]
  · rw [hmdd, PerformanceCalculator.calculateMaxDrawdown_eq (horder.trans hcons), h.drawdowns]
    unfold totals
    rw [hcons, List.map_cons, hfirst]
    exact Drawdown.isGreatest_largest PerformanceCalculator.quantize2_mono _ _

/-- A run that ends normally after its last snapshot has faithful metrics. -/
theorem finish_faithful (math : DecimalMath) {days : List ℤ} (hcap : 0 < config.initialCapital)
    (hdays : days ≠ []) (hsorted : days.Pairwise (· < ·)) (lastDate : ℤ)
    (h : Recorded config.initialCapital days w) :
    wp (finish (B.withMetrics math) config lastDate) (fun r w' => Faithful config r w')
      (fun _ _ => True) w := by
  have hmetrics : wp (calculateMetrics (B.withMetrics math) config)
      (fun metrics w' => w' = w ∧ ∀ r : BacktestResult, r.metrics = metrics → Faithful config r w)
      (fun _ _ => True) w := by
    have hne : w.engine.snapshots ≠ [] := fun hnil => hdays (by rw [← h.dates, hnil]; rfl)
    unfold calculateMetrics
    rw [wp_bind, wp_get]
    dsimp only
    rw [if_neg hne, wp_map]
    cases hm : (B.withMetrics math).calculate w.engine.closedPositions w.engine.snapshots
        config.startDate config.endDate (B.withMetrics math).riskFreeRatePct with
    | error exn => trivial
    | ok m => exact ⟨rfl, fun r hr => faithful_of_recorded config hcap hdays hsorted h hm hr⟩
  unfold finish
  rw [wp_bind, wp_get, wp_ite]
  split
  · rw [wp_bind]
    refine wp_mono (forceCloseAll_spec _ lastDate w) (fun _ w₂ h₂ => ?_) (fun _ _ h => h)
    rw [h₂, wp_bind]
    refine wp_mono hmetrics ?_ (fun _ _ h => h)
    rintro metrics _ ⟨rfl, hf⟩
    exact hf _ rfl
  · rw [wp_bind]
    refine wp_mono hmetrics ?_ (fun _ _ h => h)
    rintro metrics _ ⟨rfl, hf⟩
    exact hf _ rfl

end BacktestEngine

end TradingAgent
