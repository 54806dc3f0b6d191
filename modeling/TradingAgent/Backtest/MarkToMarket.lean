/-
Snapshots against the market. The total of a snapshot comes from the market values the broker keeps
with its positions, the unrealized result from the engine's positions and the closes of the day. The
two agree on every position held since an earlier day, which the start of the day revalued at the
close; a position bought on the day itself is still valued at its fill price, so that a snapshot is
marked to market exactly when the day's purchases cost what they are worth at the close.
-/
import TradingAgent.Backtest.DoubleEntry

namespace TradingAgent

open Wp

namespace BacktestEngine

variable (B : Bench) (config : BacktestConfig)

/-! ## Marked to market -/

/-- The close of a symbol on a day. -/
def closeOn (tradingDate : ℤ) (symbol : String) : Decimal := (B.loader.getClosePrice symbol tradingDate).getD 0

/-- The total of a snapshot is the cash and the open positions at the close, and what is invested is
their cost and the unrealized result. -/
structure MarkedToMarket (w : Backtest) (snap : PortfolioSnapshot) : Prop where
  total : snap.totalValue = snap.cash + (w.engine.positions.values.map (fun p =>
    (p.quantity : Decimal) * closeOn B snap.snapshotDate p.symbol)).sum
  invested : snap.invested =
    (w.engine.positions.values.map (fun p => (p.quantity : Decimal) * p.avgCost)).sum + snap.unrealizedPnl

/-- What the shares bought on a day cost above their worth at its close. -/
def entryPremium (tradingDate : ℤ) (w : Backtest) : Decimal :=
  w.broker.positions.sum (fun symbol p =>
    if p.quantity > 0 ∧ p.entryDate = tradingDate then
      (p.averageCost - closeOn B tradingDate symbol) * p.quantity
    else 0)

/-! ## The values the broker keeps -/

/-- The engine and the broker hold the same symbols in the same quantities. -/
structure Mirrored (w : Backtest) : Prop where
  quantity : ∀ symbol,
    (w.engine.positions.get? symbol).map (·.quantity) = (w.broker.openPosition symbol).map (·.quantity)
  key : ∀ symbol p, w.engine.positions.get? symbol = some p → p.symbol = symbol

/-- At a day, each open position is older and valued at the close, if there is one, or was bought on
the day and is valued at its cost. -/
structure Valued (tradingDate : ℤ) (w : Backtest) : Prop extends Mirrored w where
  value : ∀ symbol p, w.broker.openPosition symbol = some p →
    (p.entryDate < tradingDate ∧
      ∀ close, B.loader.getClosePrice symbol tradingDate = some close → p.marketValue = close * p.quantity) ∨
    (p.entryDate = tradingDate ∧ p.marketValue = p.averageCost * p.quantity)

/-- Every open position is older than the days to come. -/
structure Aged (later : List ℤ) (w : Backtest) : Prop extends Mirrored w where
  older : ∀ tradingDate ∈ later, ∀ symbol p, w.broker.openPosition symbol = some p → p.entryDate < tradingDate

variable {B} {w : Backtest}

theorem Mirrored.held (h : Mirrored w) {symbol : String} {pos : PositionRecord}
    (hpos : w.engine.positions.get? symbol = some pos) :
    ∃ p, w.broker.openPosition symbol = some p ∧ pos.quantity = p.quantity := by
  have hq := h.quantity symbol
  rw [hpos] at hq
  cases hp : w.broker.openPosition symbol with
  | none => rw [hp] at hq; cases hq
  | some p => rw [hp] at hq; exact ⟨p, rfl, Option.some.inj hq⟩

theorem Mirrored.not_held (h : Mirrored w) {symbol : String}
    (hpos : w.engine.positions.get? symbol = none) : w.broker.openPosition symbol = none := by
  have hq := h.quantity symbol
  rw [hpos] at hq
  exact Option.map_eq_none_iff.1 hq.symm

/-- Values depend on the broker and on the engine's positions only. -/
theorem Valued.congr {tradingDate : ℤ} (h : Valued B tradingDate w) {w' : Backtest}
    (hb : w'.broker = w.broker) (hp : w'.engine.positions = w.engine.positions) :
    Valued B tradingDate w' := by
  constructor
  · constructor
    · rw [hb, hp]; exact h.quantity
    · rw [hp]; exact h.key
  · rw [hb]; exact h.value

/-- After a day its positions are older than the days after it. -/
theorem Valued.aged {tradingDate : ℤ} (h : Valued B tradingDate w) {later : List ℤ}
    (hlater : ∀ d ∈ later, tradingDate < d) : Aged later w := by
  refine ⟨h.toMirrored, fun d hd symbol p hp => ?_⟩
  have hlt := hlater d hd
  rcases h.value symbol p hp with ⟨he, -⟩ | ⟨he, -⟩ <;> omega

/-! ## One day -/

/-- Revaluing changes neither the age of a position nor, where there is a close, leaves it off it. -/
theorem revalue_value (L : HistoricalDataLoader) (tradingDate : ℤ) (symbol : String) (p : Position)
    (hq : 0 < p.quantity) : (SimulatedBroker.revalue L tradingDate symbol p).entryDate = p.entryDate ∧
      ∀ close, L.getClosePrice symbol tradingDate = some close →
        (SimulatedBroker.revalue L tradingDate symbol p).marketValue = close * p.quantity := by
  unfold SimulatedBroker.revalue
  rw [if_neg (not_le.2 hq)]
  cases L.getClosePrice symbol tradingDate with
  | none => exact ⟨rfl, fun close h => by cases h⟩
  | some close => exact ⟨rfl, fun close' h => by cases h; rfl⟩

theorem startDay_valued {tradingDate : ℤ} {later : List ℤ} (h : Aged (tradingDate :: later) w) :
    wp (startDay B tradingDate)
      (fun _ w' => Valued B tradingDate w' ∧ w'.broker.currentDate = some tradingDate)
      (fun _ _ => True) w := by
  unfold startDay
  rw [wp_bind, wp_modifyEngine, wp_onBroker]
  unfold SimulatedBroker.setCurrentDate
  rw [wp_modify]
  have hopen : ∀ b' : SimulatedBroker,
      b'.positions = w.broker.positions.mapValues (SimulatedBroker.revalue B.loader tradingDate) →
      ∀ symbol, b'.openPosition symbol =
        (w.broker.openPosition symbol).map (SimulatedBroker.revalue B.loader tradingDate symbol) :=
    fun b' hb' symbol => SimulatedBroker.openPosition_revalued B.loader hb' symbol
  refine ⟨⟨⟨fun symbol => ?_, h.key⟩, fun symbol p hp => ?_⟩, rfl⟩
  · dsimp only
    rw [hopen _ rfl, Option.map_map]
    refine (h.quantity symbol).trans (congrArg (fun f => (w.broker.openPosition symbol).map f) ?_)
    exact funext fun p => (SimulatedBroker.revalue_frame B.loader tradingDate symbol p).2.1.symm
  · dsimp only at hp
    rw [hopen _ rfl] at hp
    obtain ⟨q, hq, rfl⟩ := Option.map_eq_some_iff.1 hp
    have hpos : 0 < q.quantity := (SimulatedBroker.openPosition_eq_some.1 hq).2
    obtain ⟨hage, hvalue⟩ := revalue_value B.loader tradingDate symbol q hpos
    refine .inl ⟨hage ▸ h.older tradingDate (List.mem_cons_self ..) symbol q hq, fun close hc => ?_⟩
    rw [hvalue close hc, (SimulatedBroker.revalue_frame B.loader tradingDate symbol q).2.1]

/-- An exit closes a position in both ledgers and leaves the others. -/
theorem executeExit_valued {tradingDate : ℤ} (h : Valued B tradingDate w) (symbol : String)
    (exitReason : String) :
    wp (executeExit B symbol tradingDate exitReason) (fun _ w' => Valued B tradingDate w')
      (fun _ _ => True) w := by
  refine wp_mono (executeExit_spec B symbol tradingDate exitReason w) ?_ (fun _ _ _ => trivial)
  rintro _ w' (rfl | ⟨pos, close, order, r, hx⟩)
  · exact h
  obtain ⟨hsym, hside, hqty⟩ := hx.request
  obtain ⟨p, hp, hpq⟩ := h.held hx.held
  obtain ⟨d, hbooked⟩ := hx.booked
  obtain ⟨-, hopen, -⟩ := booked_sell hside (hsym ▸ hp) (hqty.trans hpq) hbooked
  refine ⟨⟨fun s => ?_, fun s q hq => ?_⟩, fun s q hq => ?_⟩
  · rw [hx.positions, Dict.get?_erase, hopen, hsym]
    split
    · rfl
    · exact h.quantity s
  · rw [hx.positions, Dict.get?_erase] at hq
    split at hq
    · cases hq
    · exact h.key s q hq
  · rw [hopen] at hq
    split at hq
    · cases hq
    · exact h.value s q hq

/-- An entry opens a position of the day in both ledgers, valued at its cost. -/
theorem executeSignal_valued {tradingDate : ℤ} (h : Valued B tradingDate w)
    (hdate : w.broker.currentDate = some tradingDate) (signal : Signal) :
    wp (executeSignal B config tradingDate signal) (fun _ w' => Valued B tradingDate w')
      (fun _ _ => True) w := by
  refine wp_mono (executeSignal_spec B config hdate signal) ?_ (fun _ _ _ => trivial)
  rintro _ w' (rfl | ⟨openPrice, qty, order, r, hx⟩)
  · exact h
  obtain ⟨hsym, hside, hqty⟩ := hx.request
  obtain ⟨pos, hps, hpqty, -, hpos⟩ := hx.positions
  obtain ⟨-, ⟨p, hpq, hpc, hpm, hpd, hopen⟩, -⟩ :=
    booked_buy hside (by rw [hsym]; exact h.not_held hx.unheld) hx.booked
  refine ⟨⟨fun s => ?_, fun s q hq => ?_⟩, fun s q hq => ?_⟩
  · rw [hpos, Dict.get?_set, hopen, hsym]
    split
    · simp only [Option.map_some, hpqty, hpq, hqty]
    · exact h.quantity s
  · rw [hpos, Dict.get?_set] at hq
    split at hq
    · rename_i hs; cases hq; rw [hs]; exact hps
    · exact h.key s q hq
  · rw [hopen] at hq
    split at hq
    · cases hq
      exact .inr ⟨hpd, by rw [hpm, hpc, hpq]⟩
    · exact h.value s q hq

/-- Trading on a day leaves every position older and at the close, or of the day and at cost. -/
theorem tradingSteps_valued {tradingDate : ℤ} {later : List ℤ} (h : Aged (tradingDate :: later) w) :
    wp (runAll (tradingSteps B config tradingDate)) (fun _ w' => Valued B tradingDate w')
      (fun _ _ => True) w := by
  unfold tradingSteps
  rw [wp_runAll_cons]
  refine wp_mono (startDay_valued h) ?_ (fun _ _ _ => trivial)
  rintro _ w₁ ⟨h₁, hd₁⟩
  rw [wp_runAll_cons]
  have hexits : wp (checkExits B config tradingDate) (fun _ w' => Valued B tradingDate w')
      (fun _ _ => True) w₁ := by
    unfold checkExits
    rw [wp_bind, wp_get, wp_bind]
    refine wp_mono (keeps_collectExits (I := Valued B tradingDate) B config (fun w _ h => h.congr rfl rfl)
      tradingDate _ w₁ h₁) (fun found w' h' => ?_) (fun _ _ _ => trivial)
    exact wp_forM (fun e _ w'' h'' => executeExit_valued h'' e.1 e.2) h'
  refine wp_mono (wp_and hexits (wp_mono (keeps_checkExits B config (date_orderStable B _ _)
    (date_pendingOnly _).offTrading tradingDate w₁ hd₁) (fun _ _ h => h) (fun _ _ _ => trivial))) ?_
    (fun _ _ _ => trivial)
  rintro _ w₂ ⟨h₂, hd₂⟩
  rw [wp_runAll_cons]
  have hentries : wp (executePendingSignals B config tradingDate) (fun _ w' => Valued B tradingDate w')
      (fun _ _ => True) w₂ := by
    unfold executePendingSignals
    rw [wp_bind, wp_get, wp_bind, wp_modifyEngine]
    refine wp_mono (wp_forM (I := fun w' => Valued B tradingDate w' ∧ w'.broker.currentDate = some tradingDate)
      (R := fun _ _ => True) (fun s _ w' hw' => ?_) ⟨h₂.congr rfl rfl, hd₂⟩) (fun _ _ h => h.1) (fun _ _ h => h)
    exact wp_mono (wp_and (executeSignal_valued config hw'.1 hw'.2 s) (keeps_executeSignal B config
      (date_orderStable B _ _) (date_pendingOnly _).offTrading tradingDate s w' hw'.2)) (fun _ _ h => h)
      (fun _ _ _ => trivial)
  refine wp_mono hentries ?_ (fun _ _ _ => trivial)
  intro _ w₃ h₃
  rw [wp_runAll_cons]
  exact wp_mono (keeps_generateSignals B config (fun w _ h => h.congr rfl rfl) tradingDate w₃ h₃)
    (fun _ _ h => h) (fun _ _ _ => trivial)

/-! ## One snapshot -/

/-- The engine's holdings at the close are the broker's: engine and broker hold the same shares. -/
theorem holdingsAtClose_eq {tradingDate : ℤ} (h : Valued B tradingDate w) :
    (w.engine.positions.values.map (fun p => (p.quantity : Decimal) * closeOn B tradingDate p.symbol)).sum =
      w.broker.positions.sum (fun symbol p => if p.quantity > 0 then
        (p.quantity : Decimal) * closeOn B tradingDate symbol else 0) := by
  rw [Dict.sum_values]
  refine Dict.sum_congr _ _ _ _ fun symbol => ?_
  cases hpos : w.engine.positions.get? symbol with
  | none =>
    have hnone := h.not_held hpos
    cases hp : w.broker.positions.get? symbol with
    | none => rfl
    | some p =>
      by_cases hq : p.quantity > 0
      · rw [SimulatedBroker.openPosition_eq_some.2 ⟨hp, hq⟩] at hnone; cases hnone
      · simp only [Option.elim_none, Option.elim_some, if_neg hq]
  | some pos =>
    obtain ⟨p, hp, hq⟩ := h.held hpos
    obtain ⟨hget, hpos'⟩ := SimulatedBroker.openPosition_eq_some.1 hp
    rw [hget]
    simp only [Option.elim_some, if_pos hpos', hq, h.key symbol pos hpos]

/-- An open position of the broker is held by the engine, and so has a close. -/
theorem closeOn_of_open {tradingDate : ℤ} (h : Valued B tradingDate w)
    (hclose : ∀ symbol p, w.engine.positions.get? symbol = some p →
      ∃ close, B.loader.getClosePrice symbol tradingDate = some close) {symbol : String} {p : Position}
    (hopen : w.broker.openPosition symbol = some p) :
    B.loader.getClosePrice symbol tradingDate = some (closeOn B tradingDate symbol) := by
  cases hpos : w.engine.positions.get? symbol with
  | none => rw [h.not_held hpos] at hopen; cases hopen
  | some pos =>
    obtain ⟨close, hc⟩ := hclose symbol pos hpos
    unfold closeOn
    rw [hc]
    rfl

/-- The engine's holdings at the close and the broker's values differ by the premium of the entries. -/
theorem value_eq_add_premium {tradingDate : ℤ} (h : Valued B tradingDate w)
    (hclose : ∀ symbol p, w.engine.positions.get? symbol = some p →
      ∃ close, B.loader.getClosePrice symbol tradingDate = some close) :
    w.broker.getTotalValue = w.broker.cash + (w.engine.positions.values.map (fun p =>
      (p.quantity : Decimal) * closeOn B tradingDate p.symbol)).sum + entryPremium B tradingDate w := by
  rw [SimulatedBroker.getTotalValue_eq_sum, holdingsAtClose_eq h, add_assoc]
  unfold entryPremium
  rw [Dict.sum_add]
  congr 1
  refine Dict.sum_congr _ _ _ _ fun symbol => ?_
  cases hp : w.broker.positions.get? symbol with
  | none => rfl
  | some p =>
    simp only [Option.elim_some]
    by_cases hq : p.quantity > 0
    · have hopen := SimulatedBroker.openPosition_eq_some.2 ⟨hp, hq⟩
      rcases h.value symbol p hopen with ⟨hage, hvalue⟩ | ⟨hage, hvalue⟩
      · -- bought on an earlier day, and revalued since
        rw [if_pos hq, if_pos hq, if_neg (fun hc => hage.ne hc.2), hvalue _ (closeOn_of_open h hclose hopen)]
        ring
      · rw [if_pos hq, if_pos hq, if_pos ⟨hq, hage⟩, hvalue]
        ring
    · rw [if_neg hq, if_neg hq, if_neg (fun hc => hq hc.1), add_zero]

/-- The snapshot of a day is marked to market exactly when its entries carry no premium. -/
theorem recordSnapshot_marked {tradingDate : ℤ} (h : Valued B tradingDate w)
    (hclose : ∀ symbol p, w.engine.positions.get? symbol = some p →
      ∃ close, B.loader.getClosePrice symbol tradingDate = some close) :
    ∃ snap w', recordSnapshot B tradingDate w = .ok ⟨⟩ w' ∧
      w'.engine.snapshots = w.engine.snapshots ++ [snap] ∧ snap.snapshotDate = tradingDate ∧
      (MarkedToMarket B w snap ↔ entryPremium B tradingDate w = 0) := by
  refine ⟨_, _, rfl, rfl, rfl, ?_⟩
  have htotal := value_eq_add_premium h hclose
  -- cost and unrealized result together are the holdings at the close
  have hpnl : (w.engine.positions.values.map (fun p => (p.quantity : Decimal) * p.avgCost)).sum +
      unrealizedPnl B w tradingDate = (w.engine.positions.values.map (fun p =>
        (p.quantity : Decimal) * closeOn B tradingDate p.symbol)).sum := by
    unfold unrealizedPnl
    rw [← List.sum_map_add]
    refine congrArg List.sum (List.map_congr_left fun p hp => ?_)
    obtain ⟨symbol, hsym⟩ := (Dict.mem_values_iff _ p).1 hp
    obtain ⟨close, hc⟩ := hclose symbol p hsym
    rw [h.key symbol p hsym]
    unfold closeOn
    rw [hc]
    simp only [Option.getD_some]
    ring
  constructor
  · rintro ⟨hsum, -⟩
    dsimp only at hsum
    linarith
  · intro hzero
    rw [hzero, add_zero] at htotal
    refine ⟨htotal, ?_⟩
    dsimp only
    rw [hpnl, htotal]
    ring

/-! ## The run -/

theorem day_aged {tradingDate : ℤ} {later : List ℤ} (h : Aged (tradingDate :: later) w)
    (hlater : ∀ d ∈ later, tradingDate < d) :
    wp (runAll (daySteps B config tradingDate)) (fun _ w' => Aged later w') (fun _ _ => True) w := by
  rw [daySteps_eq, wp_runAll_append]
  refine wp_mono (tradingSteps_valued config h) (fun _ w' h' => ?_) (fun _ _ _ => trivial)
  rw [wp_runAll_cons]
  exact wp_mono (keeps_recordSnapshot B (I := Valued B tradingDate) (fun w _ _ _ h => h.congr rfl rfl)
    tradingDate w' h') (fun _ _ h => h.aged hlater) (fun _ _ _ => trivial)

theorem days_aged (before : List ℤ) {after : List ℤ} (hsorted : (before ++ after).Pairwise (· < ·))
    (h : Aged (before ++ after) w) :
    wp (runAll (loopSteps B config before)) (fun _ w' => Aged after w') (fun _ _ => True) w := by
  induction before generalizing w with
  | nil => exact h
  | cons d ds ih =>
    rw [List.cons_append, List.pairwise_cons] at hsorted
    unfold loopSteps
    rw [List.flatMap_cons, wp_runAll_append]
    exact wp_mono (day_aged config h hsorted.1) (fun _ w' h' => ih hsorted.2 h') (fun _ _ _ => trivial)

variable (B)

/-- A run up to the snapshot of a day: the days before it and the trading of the day. -/
def runToSnapshot (before : List ℤ) (tradingDate : ℤ) : M PUnit := do
  prepare B config
  runAll (loopSteps B config before)
  runAll (tradingSteps B config tradingDate)

/-- A reset engine and a broker without open positions hold nothing. -/
theorem prepare_aged (e : BacktestEngine) {b : SimulatedBroker} (hb : ∀ symbol, b.openPosition symbol = none)
    (later : List ℤ) : wp (prepare B config) (fun _ w' => Aged later w') (fun _ _ => True) ⟨e, b⟩ := by
  have h0 : ∀ e' : BacktestEngine, e'.positions = Dict.empty → Aged later ⟨e', b⟩ := by
    intro e' hp
    refine ⟨⟨fun symbol => ?_, fun symbol p h => ?_⟩, fun d _ symbol p h => ?_⟩
    · dsimp only; rw [hp, hb symbol]; rfl
    · dsimp only at h; rw [hp] at h; cases h
    · dsimp only at h; rw [hb symbol] at h; cases h
  unfold prepare
  rw [wp_bind, wp_modify]
  cases config.mode with
  | technical => exact h0 _ rfl
  | llmLive => exact h0 _ rfl
  | llmReplay =>
    cases B.sessionFactory with
    | none => trivial
    | some rows => exact h0 _ rfl

/-- In every run on a broker without open positions, on every day on which each held symbol has a
close, the snapshot is marked to market exactly when the shares bought on that day cost, taken
together, what they are worth at its close. -/
theorem markedToMarket_iff (e : BacktestEngine) {b : SimulatedBroker}
    (hb : ∀ symbol, b.openPosition symbol = none) {before after : List ℤ} {tradingDate : ℤ}
    (hdates : tradingDates B config = before ++ tradingDate :: after)
    (hrun : runToSnapshot B config before tradingDate ⟨e, b⟩ = .ok ⟨⟩ w)
    (hclose : ∀ symbol p, w.engine.positions.get? symbol = some p →
      ∃ close, B.loader.getClosePrice symbol tradingDate = some close) :
    ∃ snap w', recordSnapshot B tradingDate w = .ok ⟨⟩ w' ∧
      w'.engine.snapshots = w.engine.snapshots ++ [snap] ∧ snap.snapshotDate = tradingDate ∧
      (MarkedToMarket B w snap ↔ entryPremium B tradingDate w = 0) := by
  have hsorted : (before ++ tradingDate :: after).Pairwise (· < ·) :=
    hdates ▸ B.loader.pairwise_lt_tradingDates.filter _
  have hspec : wp (runToSnapshot B config before tradingDate) (fun _ w' => Valued B tradingDate w')
      (fun _ _ => True) ⟨e, b⟩ := by
    unfold runToSnapshot
    rw [wp_bind]
    refine wp_mono (prepare_aged B config e hb (before ++ tradingDate :: after)) ?_ (fun _ _ h => h)
    intro _ w₀ h₀
    rw [wp_bind]
    refine wp_mono (days_aged config before hsorted h₀) (fun _ w₁ h₁ => ?_) (fun _ _ h => h)
    exact tradingSteps_valued config h₁
  have hvalued := wp_of_ok hspec hrun
  exact recordSnapshot_marked hvalued hclose

/-- What a run to a snapshot shows: the held symbols, the value and the cash of the broker, and the
holdings at the close. -/
def valuation (tradingDate : ℤ) : EStateM.Result Exn Backtest PUnit →
    Option (List String × Decimal × Decimal × Decimal)
  | .ok _ w => some (w.engine.positions.keys, w.broker.getTotalValue, w.broker.cash,
      (w.engine.positions.values.map (fun p => (p.quantity : Decimal) * closeOn B tradingDate p.symbol)).sum)
  | .error _ _ => none

theorem hasClose_of_keys {tradingDate : ℤ} {symbols : List String} (hkeys : w.engine.positions.keys = symbols)
    (h : ∀ s ∈ symbols, ∃ close, B.loader.getClosePrice s tradingDate = some close) :
    ∀ symbol p, w.engine.positions.get? symbol = some p →
      ∃ close, B.loader.getClosePrice symbol tradingDate = some close := by
  intro symbol p hp
  refine h symbol ?_
  rw [← hkeys]
  exact List.mem_map.2 ⟨(symbol, p), (Dict.mem_items_iff _ _ _).2 hp, rfl⟩

/-- Two days of one symbol; the second opens at 1000 won, which slips to 1001. -/
def entryDays (close₂ : Decimal) : List DailyOHLCV :=
  [{ symbol := "A", date := 1, openPrice := 1000, high := 1000, low := 1000, close := 1000, volume := 10 },
   { symbol := "A", date := 2, openPrice := 1000, high := close₂, low := 1000, close := close₂, volume := 10 }]

/-- Bought at 1001 won on a day that closes at 1001 won: the snapshot is marked to market. -/
theorem entryAtClose_marked :
    let B := replayBench ⟨entryDays 1001, by decide, by decide⟩ [buyDecision 1 "A" 1] {}
    ∃ w snap w', runToSnapshot B (replayConfig 1 2 ["A"]) [1] 2
        ⟨{}, SimulatedBroker.new B.brokerConfig⟩ = .ok ⟨⟩ w ∧ w.engine.positions.keys = ["A"] ∧
      recordSnapshot B 2 w = .ok ⟨⟩ w' ∧ w'.engine.snapshots = w.engine.snapshots ++ [snap] ∧
      MarkedToMarket B w snap := by
  intro B
  have hval : (match runToSnapshot B (replayConfig 1 2 ["A"]) [1] 2 ⟨{}, SimulatedBroker.new B.brokerConfig⟩ with
      | .ok _ w => some (w.engine.positions.keys, entryPremium B 2 w)
      | .error _ _ => none) = some (["A"], 0) := by decide +kernel
  cases hrun : runToSnapshot B (replayConfig 1 2 ["A"]) [1] 2 ⟨{}, SimulatedBroker.new B.brokerConfig⟩ with
  | error e w => rw [hrun] at hval; cases hval
  | ok a w =>
    rw [hrun] at hval
    simp only [Option.some.injEq, Prod.mk.injEq] at hval
    have hclose : ∀ s ∈ ["A"], ∃ close, B.loader.getClosePrice s 2 = some close := by
      intro s hs
      rw [List.mem_singleton.1 hs]
      exact ⟨1001, by decide +kernel⟩
    obtain ⟨snap, w', hsnap, happ, -, hiff⟩ := markedToMarket_iff B (replayConfig 1 2 ["A"]) {}
      (fun _ => rfl) (show tradingDates B (replayConfig 1 2 ["A"]) = [1] ++ 2 :: [] by decide +kernel) hrun
      (hasClose_of_keys B hval.1 hclose)
    exact ⟨w, snap, w', rfl, hval.1, hsnap, happ, hiff.2 hval.2⟩

/-- Bought at 1001 won on a day that closes at 1010 won: the snapshot still counts 1001 won a share. -/
theorem entryBelowClose_not_marked :
    let B := replayBench ⟨entryDays 1010, by decide, by decide⟩ [buyDecision 1 "A" 1] {}
    (∀ d ∈ tradingDates B (replayConfig 1 2 ["A"]), ∃ close, B.loader.getClosePrice "A" d = some close) ∧
    ∃ w snap w', runToSnapshot B (replayConfig 1 2 ["A"]) [1] 2
        ⟨{}, SimulatedBroker.new B.brokerConfig⟩ = .ok ⟨⟩ w ∧ w.engine.positions.keys = ["A"] ∧
      recordSnapshot B 2 w = .ok ⟨⟩ w' ∧ w'.engine.snapshots = w.engine.snapshots ++ [snap] ∧
      snap.totalValue = 9999850 ∧ ¬ MarkedToMarket B w snap := by
  intro B
  refine ⟨?_, ?_⟩
  · have hdates : tradingDates B (replayConfig 1 2 ["A"]) = [1, 2] := by decide +kernel
    rw [hdates]
    intro d hd
    rcases List.mem_cons.1 hd with rfl | hd
    · exact ⟨1000, by decide +kernel⟩
    · rw [List.mem_singleton.1 hd]
      exact ⟨1010, by decide +kernel⟩
  have hval : valuation B 2 (runToSnapshot B (replayConfig 1 2 ["A"]) [1] 2
      ⟨{}, SimulatedBroker.new B.brokerConfig⟩) = some (["A"], 9999850, 8998850, 1010000) := by decide +kernel
  cases hrun : runToSnapshot B (replayConfig 1 2 ["A"]) [1] 2 ⟨{}, SimulatedBroker.new B.brokerConfig⟩ with
  | error e w => rw [hrun] at hval; cases hval
  | ok a w =>
    rw [hrun] at hval
    simp only [valuation, Option.some.injEq, Prod.mk.injEq] at hval
    obtain ⟨hkeys, hvalue, hcash, hsum⟩ := hval
    refine ⟨w, _, _, rfl, hkeys, rfl, rfl, hvalue, fun h => ?_⟩
    have htotal := h.total
    dsimp only at htotal
    rw [hvalue, hcash, hsum] at htotal
    exact absurd htotal (by norm_num)

end BacktestEngine

end TradingAgent
