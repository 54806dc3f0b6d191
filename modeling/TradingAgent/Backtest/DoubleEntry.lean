/-
Double entry of a backtest. The engine and its broker keep two ledgers by different code. Each of the
engine's actions on positions is, in both, one step of an abstract book: an entry buys, an exit
closes, everything else leaves the books alone. The one entry that breaks this is a fill at zero,
which the engine replaces by the open price.
-/
import TradingAgent.Backtest.Frame
import TradingAgent.Lib.Ledger

namespace TradingAgent

open Wp

/-! ## The two ledgers -/

namespace BacktestEngine

/-- What the engine and its broker are meant to agree on between the steps of a run: the same open
symbols with the same quantity and average cost, no symbol twice, and the balance of cash and
holdings at cost against the initial capital, the realized results and the entry commissions. -/
structure DoubleEntry (initialCapital : Decimal) (w : Backtest) : Prop where
  sameHoldings : ∀ symbol,
    (w.engine.positions.get? symbol).map (fun p => (p.quantity, p.avgCost)) =
      (w.broker.openPosition symbol).map (fun p => (p.quantity, p.averageCost))
  engineOnce : (w.engine.positions.values.map (·.symbol)).Nodup
  brokerOnce : (w.broker.openPositions.map (·.symbol)).Nodup
  balance : w.broker.cash + (w.engine.positions.values.map (fun p => (p.quantity : Decimal) * p.avgCost)).sum =
    initialCapital + (w.engine.closedPositions.map (fun p => p.realizedPnl.getD 0)).sum -
      ((w.engine.trades.filter (fun t => t.side = .buy)).map (·.commission)).sum

/-- The book of an engine and its broker: the broker's cash, the engine's holdings. -/
def book (w : Backtest) : Ledger.Book String Decimal where
  cash := w.broker.cash
  holdings := w.engine.positions.mapValues (fun _ p => ((p.quantity : Decimal), p.avgCost))
  realized := (w.engine.closedPositions.map (fun p => p.realizedPnl.getD 0)).sum
  fees := ((w.engine.trades.filter (fun t => t.side = .buy)).map (·.commission)).sum

/-- The invariant behind it: the holdings mirror each other, positions are filed under their symbol,
and the book is balanced. -/
structure Books (initialCapital : Decimal) (w : Backtest) : Prop where
  mirror : ∀ symbol,
    (w.engine.positions.get? symbol).map (fun p => (p.quantity, p.avgCost)) =
      (w.broker.openPosition symbol).map (fun p => (p.quantity, p.averageCost))
  engineKey : ∀ symbol p, w.engine.positions.get? symbol = some p → p.symbol = symbol
  brokerKey : ∀ symbol p, w.broker.positions.get? symbol = some p → p.symbol = symbol
  balanced : Ledger.Balanced initialCapital (book w)

theorem nodup_symbols {α : Type} {d : Dict String α} {sym : α → String}
    (h : ∀ k a, d.get? k = some a → sym a = k) : (d.values.map sym).Nodup := by
  have heq : d.values.map sym = d.items.map Prod.fst := by
    unfold Dict.values
    rw [List.map_map]
    exact List.map_congr_left (fun e he => h e.1 e.2 ((d.mem_items_iff e.1 e.2).1 he))
  rw [heq]; exact d.nodup

theorem Books.doubleEntry {initialCapital : Decimal} {w : Backtest} (h : Books initialCapital w) :
    DoubleEntry initialCapital w where
  sameHoldings := h.mirror
  engineOnce := nodup_symbols h.engineKey
  brokerOnce := ((List.filter_sublist.map _).nodup (nodup_symbols h.brokerKey))
  balance := by
    have hb := h.balanced
    have hval : (book w).value = (w.engine.positions.values.map (fun p => (p.quantity : Decimal) * p.avgCost)).sum := by
      unfold Ledger.Book.value book Dict.sum Dict.mapValues Dict.values
      simp only [List.map_map]
      rfl
    unfold Ledger.Balanced at hb
    rw [hval] at hb
    exact hb

variable {initialCapital : Decimal} {w : Backtest}

/-- The quantity and cost of a held position are those of an open position of the broker. -/
theorem Books.held (h : Books initialCapital w) {symbol : String} {pos : PositionRecord}
    (hpos : w.engine.positions.get? symbol = some pos) : ∃ p, w.broker.openPosition symbol = some p ∧
      pos.quantity = p.quantity ∧ pos.avgCost = p.averageCost := by
  have hm := h.mirror symbol
  rw [hpos] at hm
  cases hp : w.broker.openPosition symbol with
  | none => rw [hp] at hm; cases hm
  | some p =>
    rw [hp] at hm
    simp only [Option.map_some, Option.some.injEq, Prod.mk.injEq] at hm
    exact ⟨p, rfl, hm.1, hm.2⟩

theorem Books.not_held (h : Books initialCapital w) {symbol : String}
    (hpos : w.engine.positions.get? symbol = none) : w.broker.openPosition symbol = none := by
  have hm := h.mirror symbol
  rw [hpos] at hm
  cases hp : w.broker.openPosition symbol with
  | none => rfl
  | some p => rw [hp] at hm; cases hm

/-- The books depend on the broker and on the engine's positions, closed positions and trades only. -/
theorem Books.congr (h : Books initialCapital w) {w' : Backtest} (hb : w'.broker = w.broker)
    (hp : w'.engine.positions = w.engine.positions)
    (hc : w'.engine.closedPositions = w.engine.closedPositions)
    (ht : w'.engine.trades = w.engine.trades) : Books initialCapital w' := by
  constructor
  · rw [hp, hb]; exact h.mirror
  · rw [hp]; exact h.engineKey
  · rw [hb]; exact h.brokerKey
  · unfold book; rw [hp, hb, hc, ht]; exact h.balanced

/-! ## One exit, one entry -/

theorem brokerKey_of_set {b b' : SimulatedBroker} {symbol : String} {p : Position}
    (h : b'.positions = b.positions.set symbol p) (hp : p.symbol = symbol)
    (hk : ∀ s q, b.positions.get? s = some q → q.symbol = s) :
    ∀ s q, b'.positions.get? s = some q → q.symbol = s := by
  intro s q hq
  rw [h, Dict.get?_set] at hq
  split at hq
  · rename_i hs; cases hq; rw [hs]; exact hp
  · exact hk s q hq

/-- The broker sells the whole open position: nothing is open in the symbol afterwards. -/
theorem booked_sell {order : OrderRequest} {b b' : SimulatedBroker} {d : ℤ} {price fee : Decimal}
    {p : Position} (hside : order.side = .sell) (hp : b.openPosition order.symbol = some p)
    (hq : order.quantity = p.quantity) (h : SimulatedBroker.Booked order b b' d price fee) :
    b'.cash = b.cash + (price * order.quantity - fee) ∧
      (∀ s, b'.openPosition s = if s = order.symbol then none else b.openPosition s) ∧
      ((∀ s q, b.positions.get? s = some q → q.symbol = s) →
        ∀ s q, b'.positions.get? s = some q → q.symbol = s) := by
  unfold SimulatedBroker.Booked at h
  rw [hside] at h
  obtain ⟨p', hp', -, hcash, hset⟩ := h
  cases hp.symm.trans hp'
  have h0 : (SimulatedBroker.soldPosition p order price).quantity = 0 := by
    unfold SimulatedBroker.soldPosition; simp [hq]
  refine ⟨hcash, fun s => ?_, fun hk => brokerKey_of_set hset ?_ hk⟩
  · rw [SimulatedBroker.openPosition_of_set hset, h0, if_neg (lt_irrefl 0)]
  · have hsym : p.symbol = order.symbol :=
      hk _ _ (Option.eq_some_of_filter_eq_some hp)
    unfold SimulatedBroker.soldPosition
    dsimp only
    split <;> exact hsym

/-- The broker buys a symbol in which nothing is open: the new position has the order's quantity at
the fill price, and is valued at it. -/
theorem booked_buy {order : OrderRequest} {b b' : SimulatedBroker} {d : ℤ} {price fee : Decimal}
    (hside : order.side = .buy) (hp : b.openPosition order.symbol = none)
    (h : SimulatedBroker.Booked order b b' d price fee) :
    b'.cash = b.cash - (price * order.quantity + fee) ∧
      (∃ p, p.quantity = order.quantity ∧ p.averageCost = price ∧
        p.marketValue = price * order.quantity ∧ p.entryDate = d ∧
        ∀ s, b'.openPosition s = if s = order.symbol then some p else b.openPosition s) ∧
      ((∀ s q, b.positions.get? s = some q → q.symbol = s) →
        ∀ s q, b'.positions.get? s = some q → q.symbol = s) := by
  unfold SimulatedBroker.Booked at h
  rw [hside] at h
  obtain ⟨hcash, hset⟩ := h
  unfold SimulatedBroker.boughtPosition at hset
  have hp' : (b.positions.get? order.symbol).filter (fun p => p.quantity > 0) = none := hp
  rw [hp'] at hset
  have hopen := SimulatedBroker.openPosition_of_set hset
  simp only [order.quantity_pos, if_true] at hopen
  exact ⟨hcash, ⟨_, rfl, rfl, rfl, rfl, hopen⟩, fun hk => brokerKey_of_set hset rfl hk⟩

variable (B : Bench) (config : BacktestConfig)

/-- An exit for a reason of the enumeration keeps the books: it closes a holding in both ledgers. -/
theorem executeExit_books (h : Books initialCapital w) (symbol : String) (tradingDate : ℤ)
    (exitReason : String) :
    wp (executeExit B symbol tradingDate exitReason) (fun _ w' => Books initialCapital w')
      (fun _ _ => True) w := by
  refine wp_mono (executeExit_spec B symbol tradingDate exitReason w) ?_ (fun _ _ _ => trivial)
  rintro _ w' (rfl | ⟨pos, close, order, r, hx⟩)
  · exact h
  obtain ⟨hsym, hside, hqty⟩ := hx.request
  obtain ⟨p, hp, hpq, hpc⟩ := h.held hx.held
  obtain ⟨d, hbooked⟩ := hx.booked
  obtain ⟨c, hc, hclosed⟩ := hx.closed
  obtain ⟨t, ht, htrades⟩ := hx.trades
  obtain ⟨hcash, hopen, hkey⟩ := booked_sell hside (hsym ▸ hp) (hqty.trans hpq) hbooked
  constructor
  · intro s
    rw [hx.positions, Dict.get?_erase, hopen, hsym]
    split
    · rfl
    · exact h.mirror s
  · intro s q hq
    rw [hx.positions, Dict.get?_erase] at hq
    split at hq
    · cases hq
    · exact h.engineKey s q hq
  · exact hkey h.brokerKey
  · have hstep := Ledger.balanced_close h.balanced symbol close r.commission
    unfold Ledger.Book.close at hstep
    have hget : (book w).holdings.get? symbol = some ((pos.quantity : Decimal), pos.avgCost) := by
      unfold book; rw [Dict.get?_mapValues, hx.held]; rfl
    rw [hget] at hstep
    convert hstep using 1
    unfold book
    simp only [hx.positions, Dict.mapValues_erase, hcash, hqty, hclosed, hc, htrades, List.map_append,
      List.sum_append, List.filter_append, List.map_cons, List.map_nil, List.sum_cons, List.sum_nil,
      Option.getD_some, add_zero]
    simp [ht]

/-- The signal would be bought at zero: its open price, slipped and rounded to whole won, is zero. -/
def EntersAtZero (tradingDate : ℤ) (signal : Signal) (w : Backtest) : Prop :=
  signal.action = .buy ∧ w.engine.positions.get? signal.symbol = none ∧
    ∃ openPrice qty, B.loader.getOpenPrice signal.symbol tradingDate = some openPrice ∧
      riskCheck B w signal.symbol signal.quantity openPrice = some qty ∧
      SimulatedBroker.calculateSlippage B.brokerConfig .buy openPrice = 0

/-- An executed signal keeps the books unless it is bought at zero. -/
theorem executeSignal_books (h : Books initialCapital w) {tradingDate : ℤ} {signal : Signal}
    (hdate : w.broker.currentDate = some tradingDate) (hz : ¬ EntersAtZero B tradingDate signal w) :
    wp (executeSignal B config tradingDate signal) (fun _ w' => Books initialCapital w')
      (fun _ _ => True) w := by
  refine wp_mono (executeSignal_spec B config hdate signal) ?_ (fun _ _ _ => trivial)
  rintro _ w' (rfl | ⟨openPrice, qty, order, r, hx⟩)
  · exact h
  obtain ⟨hsym, hside, hqty⟩ := hx.request
  obtain ⟨pos, hps, hpqty, hpcost, hpos⟩ := hx.positions
  obtain ⟨t, htside, htfee, htrades⟩ := hx.trades
  -- the engine books the broker's price, since it is not zero
  have hne : SimulatedBroker.calculateSlippage B.brokerConfig .buy openPrice ≠ 0 := fun h0 =>
    hz ⟨hx.action, hx.unheld, openPrice, qty, hx.hasOpen, hx.risk, h0⟩
  have hprice : fillPriceOf r openPrice = SimulatedBroker.calculateSlippage B.brokerConfig .buy openPrice := by
    unfold fillPriceOf; rw [hx.filled]; dsimp only; rw [if_neg hne]
  obtain ⟨hcash, ⟨p, hpq, hpc, -, -, hopen⟩, hkey⟩ :=
    booked_buy hside (by rw [hsym]; exact h.not_held hx.unheld) hx.booked
  constructor
  · intro s
    rw [hpos, Dict.get?_set, hopen, hsym]
    split
    · simp only [Option.map_some, hpqty, hpcost, hpq, hpc, hqty, hprice]
    · exact h.mirror s
  · intro s q hq
    rw [hpos, Dict.get?_set] at hq
    split at hq
    · rename_i hs; cases hq; rw [hs]; exact hps
    · exact h.engineKey s q hq
  · exact hkey h.brokerKey
  · have hnone : (book w).holdings.get? signal.symbol = none := by
      unfold book; rw [Dict.get?_mapValues, hx.unheld]; rfl
    have hstep := Ledger.balanced_buy h.balanced hnone (qty : Decimal)
      (SimulatedBroker.calculateSlippage B.brokerConfig .buy openPrice) r.commission
    convert hstep using 1
    unfold book Ledger.Book.buy
    simp [hpos, hx.closed, htrades, Dict.mapValues_set, hcash, hqty, hpqty, hpcost, htside, htfee, hprice]

/-! ## The steps of a day -/

theorem startDay_books (h : Books initialCapital w) (tradingDate : ℤ) :
    wp (startDay B tradingDate)
      (fun _ w' => Books initialCapital w' ∧ w'.broker.currentDate = some tradingDate)
      (fun _ _ => True) w := by
  unfold startDay
  rw [wp_bind, wp_modifyEngine, wp_onBroker]
  unfold SimulatedBroker.setCurrentDate
  rw [wp_modify]
  refine ⟨?_, rfl⟩
  constructor
  · intro s
    have hrev : ∀ b' : SimulatedBroker,
        b'.positions = w.broker.positions.mapValues (SimulatedBroker.revalue B.loader tradingDate) →
        (b'.openPosition s).map (fun p => (p.quantity, p.averageCost)) =
          (w.broker.openPosition s).map (fun p => (p.quantity, p.averageCost)) := by
      intro b' hb'
      rw [SimulatedBroker.openPosition_revalued B.loader hb', Option.map_map]
      refine congrArg (fun f => (w.broker.openPosition s).map f) (funext fun p => ?_)
      obtain ⟨-, hq, hc⟩ := SimulatedBroker.revalue_frame B.loader tradingDate s p
      rw [Function.comp_apply, hq, hc]
    exact (h.mirror s).trans (hrev _ rfl).symm
  · exact h.engineKey
  · intro s p hp
    rw [Dict.get?_mapValues] at hp
    obtain ⟨q, hq, rfl⟩ := Option.map_eq_some_iff.1 hp
    rw [(SimulatedBroker.revalue_frame B.loader tradingDate s q).1]; exact h.brokerKey s q hq
  · exact h.balanced

theorem checkExits_books (h : Books initialCapital w) (tradingDate : ℤ) :
    wp (checkExits B config tradingDate) (fun _ w' => Books initialCapital w') (fun _ _ => True) w := by
  unfold checkExits
  rw [wp_bind, wp_get, wp_bind]
  have hcollect := keeps_collectExits (I := Books initialCapital) B config
    (fun w _ h => h.congr rfl rfl rfl rfl) tradingDate w.engine.positions.items w h
  refine wp_mono hcollect (fun found w' h' => ?_) (fun _ _ _ => trivial)
  exact wp_forM (fun e _ w'' h'' => executeExit_books B h'' e.1 tradingDate e.2) h'

/-- Along the execution of the signals from a state, none is bought at zero. -/
def NoZeroEntry (tradingDate : ℤ) (signals : List Signal) (w : Backtest) : Prop :=
  Guarded (signals.map (fun s => ((fun w => ¬ EntersAtZero B tradingDate s w),
    executeSignal B config tradingDate s))) w

/-- After any number of the signals the books still match. -/
theorem signals_books (h : Books initialCapital w) {tradingDate : ℤ}
    (hdate : w.broker.currentDate = some tradingDate) {signals : List Signal}
    (hz : NoZeroEntry B config tradingDate signals w) (k : ℕ) :
    wp ((signals.take k).forM (executeSignal B config tradingDate))
      (fun _ w' => Books initialCapital w') (fun _ _ => True) w := by
  have hstep : ∀ e ∈ signals.map (fun s => ((fun w => ¬ EntersAtZero B tradingDate s w),
      executeSignal B config tradingDate s)), ∀ w,
      (Books initialCapital w ∧ w.broker.currentDate = some tradingDate) → e.1 w →
      wp e.2 (fun _ w' => Books initialCapital w' ∧ w'.broker.currentDate = some tradingDate)
        (fun _ _ => True) w := by
    intro e he w hw hg
    obtain ⟨s, -, rfl⟩ := List.mem_map.1 he
    exact wp_mono (wp_and (executeSignal_books B config hw.1 hw.2 hg)
      (keeps_executeSignal B config (date_orderStable B _ _) (date_pendingOnly _).offTrading tradingDate s w hw.2))
        (fun _ _ h => h)
      (fun _ _ _ => trivial)
  have hrun := wp_guarded hstep hz ⟨h, hdate⟩ k
  rw [List.map_map, ← List.map_take, List.forM_eq_forM, List.forM_map] at hrun
  exact wp_mono hrun (fun _ _ h => h.1) (fun _ _ h => h)

theorem executePendingSignals_books (h : Books initialCapital w) {tradingDate : ℤ}
    (hdate : w.broker.currentDate = some tradingDate)
    (hz : NoZeroEntry B config tradingDate w.engine.pendingSignals
      { w with engine := { w.engine with pendingSignals := [] } }) :
    wp (executePendingSignals B config tradingDate) (fun _ w' => Books initialCapital w')
      (fun _ _ => True) w := by
  unfold executePendingSignals
  rw [wp_bind, wp_get, wp_bind, wp_modifyEngine]
  have hcleared : Books initialCapital { w with engine := { w.engine with pendingSignals := [] } } :=
    h.congr rfl rfl rfl rfl
  have hrun := signals_books B config hcleared hdate hz w.engine.pendingSignals.length
  rw [List.take_length] at hrun
  exact hrun

/-- On one day from a state: when its entries start, none of the pending signals is bought at zero. -/
def SafeDay (tradingDate : ℤ) (w : Backtest) : Prop :=
  ∀ w₁, startDay B tradingDate w = .ok ⟨⟩ w₁ → ∀ w₂, checkExits B config tradingDate w₁ = .ok ⟨⟩ w₂ →
    NoZeroEntry B config tradingDate w₂.engine.pendingSignals
      { w₂ with engine := { w₂.engine with pendingSignals := [] } }

/-- A safe day has matching books after each of its steps. -/
theorem day_books (h : Books initialCapital w) {tradingDate : ℤ} (hz : SafeDay B config tradingDate w)
    (k : ℕ) :
    wp (runAll ((daySteps B config tradingDate).take k)) (fun _ w' => Books initialCapital w')
      (fun _ _ => True) w := by
  have keep : ∀ {x : M PUnit} {w'}, Keeps (Books initialCapital) x → Books initialCapital w' →
      wp x (fun _ w'' => Books initialCapital w'') (fun _ _ => True) w' :=
    fun hx h' => wp_mono (hx _ h') (fun _ _ h => h) (fun _ _ _ => trivial)
  unfold daySteps
  rcases k with _ | k
  · exact h
  rw [List.take_succ_cons, wp_runAll_cons]
  refine wp_mono (wp_and (startDay_books B h tradingDate) (wp_self _ w)) ?_ (fun _ _ _ => trivial)
  rintro _ w₁ ⟨⟨h₁, hd₁⟩, heq₁⟩
  rcases k with _ | k
  · exact h₁
  rw [List.take_succ_cons, wp_runAll_cons]
  refine wp_mono (wp_and (wp_and (checkExits_books B config h₁ tradingDate) (wp_mono
    (keeps_checkExits B config (date_orderStable B _ _) (date_pendingOnly _).offTrading tradingDate w₁ hd₁)
      (fun _ _ h => h) (fun _ _ _ => trivial)))
    (wp_self _ w₁)) ?_ (fun _ _ _ => trivial)
  rintro _ w₂ ⟨⟨h₂, hd₂⟩, heq₂⟩
  rcases k with _ | k
  · exact h₂
  rw [List.take_succ_cons, wp_runAll_cons]
  refine wp_mono (executePendingSignals_books B config h₂ hd₂ (hz w₁ heq₁ w₂ heq₂)) ?_
    (fun _ _ h => h)
  intro _ w₃ h₃
  rcases k with _ | k
  · exact h₃
  rw [List.take_succ_cons, wp_runAll_cons]
  refine wp_mono (keep (keeps_generateSignals B config (fun w _ h => h.congr rfl rfl rfl rfl) tradingDate) h₃)
    ?_ (fun _ _ h => h)
  intro _ w₄ h₄
  rcases k with _ | k
  · exact h₄
  rw [List.take_succ_cons, wp_runAll_cons, List.take_nil]
  exact keep (keeps_recordSnapshot B (fun w _ _ _ h => h.congr rfl rfl rfl rfl) tradingDate) h₄

/-! ## The run -/

/-- Along the days of a run from a state, every day is safe. -/
def SafeDays : List ℤ → Backtest → Prop
  | [], _ => True
  | d :: ds, w => SafeDay B config d w ∧
    ∀ w', runAll (daySteps B config d) w = .ok ⟨⟩ w' → SafeDays ds w'

/-- A run of safe days has matching books at every point between its steps. -/
theorem days_books : ∀ {dates : List ℤ} {w : Backtest}, Books initialCapital w →
    SafeDays B config dates w → ∀ k,
    wp (runAll ((loopSteps B config dates).take k)) (fun _ w' => Books initialCapital w')
      (fun _ _ => True) w
  | [], w, h, _, k => by unfold loopSteps; rw [List.flatMap_nil, List.take_nil]; exact h
  | d :: ds, w, h, hz, k => by
    unfold loopSteps
    rw [List.flatMap_cons, List.take_append, wp_runAll_append]
    rcases Nat.le_total k (daySteps B config d).length with hk | hk
    · rw [Nat.sub_eq_zero_of_le hk]
      exact day_books B config h hz.1 k
    · rw [List.take_of_length_le hk]
      have hday := day_books B config h hz.1 (daySteps B config d).length
      rw [List.take_length] at hday
      refine wp_mono (wp_and hday (wp_self _ w)) ?_ (fun _ _ _ => trivial)
      rintro _ w' ⟨h', heq⟩
      exact days_books h' (hz.2 w' heq) _

/-- A reset engine with a fresh broker has balanced books. -/
theorem prepare_books {e : BacktestEngine} :
    wp (prepare B config) (fun _ w' => Books B.brokerConfig.initialCapital w') (fun _ _ => True)
      ⟨e, SimulatedBroker.new B.brokerConfig⟩ := by
  have h0 : ∀ e' : BacktestEngine, e'.positions = Dict.empty → e'.closedPositions = [] →
      e'.trades = [] → Books B.brokerConfig.initialCapital ⟨e', SimulatedBroker.new B.brokerConfig⟩ := by
    intro e' hp hc ht
    constructor
    · intro s; dsimp only; rw [hp]; rfl
    · intro s p h; dsimp only at h; rw [hp] at h; cases h
    · intro s p h; cases h
    · unfold book; dsimp only; rw [hp, hc, ht]
      exact Ledger.balanced_empty _
  unfold prepare
  rw [wp_bind, wp_modify]
  cases config.mode with
  | technical => exact h0 _ rfl rfl rfl
  | llmLive => exact h0 _ rfl rfl rfl
  | llmReplay =>
    cases B.sessionFactory with
    | none => trivial
    | some rows => exact h0 _ rfl rfl rfl

/-- The run up to a point between two steps of the daily loop. -/
def runTo (k : ℕ) : M PUnit := do
  prepare B config
  runAll ((loopSteps B config (tradingDates B config)).take k)

/-- No entry of the run from a state is filled at zero. -/
def NoZeroEntries (w : Backtest) : Prop :=
  ∀ w₀, prepare B config w = .ok ⟨⟩ w₀ → SafeDays B config (tradingDates B config) w₀

theorem runTo_books {e : BacktestEngine}
    (hz : NoZeroEntries B config ⟨e, SimulatedBroker.new B.brokerConfig⟩) (k : ℕ) :
    wp (runTo B config k) (fun _ w => Books B.brokerConfig.initialCapital w) (fun _ _ => True)
      ⟨e, SimulatedBroker.new B.brokerConfig⟩ := by
  unfold runTo
  rw [wp_bind]
  refine wp_mono (wp_and (prepare_books B config) (wp_self _ _)) ?_ (fun _ _ _ => trivial)
  rintro _ w ⟨h, heq⟩
  exact days_books B config h (hz w heq) k

/-- The ledgers match, and still do after any order that the broker rejects. -/
def Settled (w : Backtest) : Prop :=
  DoubleEntry B.brokerConfig.initialCapital w ∧
    ∀ order exn b', SimulatedBroker.placeOrder B.loader B.brokerConfig order w.broker = .error exn b' →
      DoubleEntry B.brokerConfig.initialCapital { w with broker := b' }

theorem Books.settled (h : Books B.brokerConfig.initialCapital w) : Settled B w := by
  refine ⟨h.doubleEntry, fun order exn b' hrej => ?_⟩
  have hb := wp_of_error (SimulatedBroker.placeOrder_spec B.loader B.brokerConfig order w.broker) hrej
  rw [hb]; exact h.doubleEntry

/-- In a run on a fresh broker in which no entry is filled at zero, the two ledgers match at every
point between the steps of the loop and stay matched after any order the broker rejects there. -/
theorem settled_of_noZeroEntries (e : BacktestEngine)
    (hz : NoZeroEntries B config ⟨e, SimulatedBroker.new B.brokerConfig⟩) (k : ℕ) (w : Backtest)
    (hrun : runTo B config k ⟨e, SimulatedBroker.new B.brokerConfig⟩ = .ok ⟨⟩ w) : Settled B w := by
  have h := wp_of_ok (runTo_books B config hz k) hrun
  exact h.settled B

/-- Data in which no open price slips to zero admits no entry at zero. -/
theorem noZeroEntries_of_rows
    (h : ∀ r ∈ B.loader.rows, SimulatedBroker.calculateSlippage B.brokerConfig .buy r.openPrice ≠ 0)
    (w : Backtest) : NoZeroEntries B config w := by
  have hday : ∀ d w, SafeDay B config d w := by
    intro d w w₁ _ w₂ _
    refine guarded_of_forall (fun e he w => ?_) _
    obtain ⟨s, -, rfl⟩ := List.mem_map.1 he
    rintro ⟨-, -, p, q, hp, -, h0⟩
    obtain ⟨r, hr, rfl⟩ := Option.map_eq_some_iff.1 hp
    exact h r (List.mem_of_find?_eq_some hr) h0
  have hdays : ∀ dates w, SafeDays B config dates w := by
    intro dates
    induction dates with
    | nil => intro w; trivial
    | cons d ds ih => exact fun w => ⟨hday d w, fun w' _ => ih w'⟩
  exact fun w₀ _ => hdays _ w₀

/-- Two days of one symbol. -/
def twoDays (open₂ : Decimal) : List DailyOHLCV :=
  [{ symbol := "A", date := 1, openPrice := 1000, high := 1000, low := 1000, close := 1000, volume := 10 },
   { symbol := "A", date := 2, openPrice := open₂, high := 1000, low := open₂, close := 1000, volume := 10 }]

/-- The BUY decided on the first day is filled at 1001 won on the second; the ledgers match after it. -/
theorem settled_after_entry :
    let B := replayBench ⟨twoDays 1000, by decide, by decide⟩ [buyDecision 1 "A" 1] {}
    ∃ w, runTo B (replayConfig 1 2 ["A"]) 8 ⟨{}, SimulatedBroker.new B.brokerConfig⟩ = .ok ⟨⟩ w ∧
      (w.engine.positions.get? "A").map (fun p => (p.quantity, p.avgCost)) = some (1000, 1001) ∧
      Settled B w := by
  intro B
  have hval : (match runTo B (replayConfig 1 2 ["A"]) 8 ⟨{}, SimulatedBroker.new B.brokerConfig⟩ with
      | .ok _ w => (w.engine.positions.get? "A").map (fun p => (p.quantity, p.avgCost))
      | .error _ _ => none) = some (1000, 1001) := by decide +kernel
  cases hrun : runTo B (replayConfig 1 2 ["A"]) 8 ⟨{}, SimulatedBroker.new B.brokerConfig⟩ with
  | error e w => rw [hrun] at hval; cases hval
  | ok a w =>
    rw [hrun] at hval
    exact ⟨w, rfl, hval, settled_of_noZeroEntries B (replayConfig 1 2 ["A"]) {}
      (noZeroEntries_of_rows B _ (by decide +kernel) _) 8 w hrun⟩

/-- An open price of 0.4 won is filled at zero. The engine books the shares at 0.4 won, the broker at
zero, and the ledgers no longer match. -/
theorem zeroFill_breaks_doubleEntry :
    let B := replayBench ⟨twoDays (2 / 5), by decide, by decide⟩ [buyDecision 1 "A" 1] {}
    (∀ r ∈ B.loader.rows, 0 < r.openPrice ∧ 0 < r.high ∧ 0 < r.low ∧ 0 < r.close) ∧
    ∃ w, runTo B (replayConfig 1 2 ["A"]) 8 ⟨{}, SimulatedBroker.new B.brokerConfig⟩ = .ok ⟨⟩ w ∧
      ¬ DoubleEntry B.brokerConfig.initialCapital w := by
  intro B
  refine ⟨by decide +kernel, ?_⟩
  have hval : (match runTo B (replayConfig 1 2 ["A"]) 8 ⟨{}, SimulatedBroker.new B.brokerConfig⟩ with
      | .ok _ w => some ((w.engine.positions.get? "A").map (fun p => (p.quantity, p.avgCost)),
          (w.broker.openPosition "A").map (fun p => (p.quantity, p.averageCost)))
      | .error _ _ => none) = some (some (1000, 2 / 5), some (1000, 0)) := by decide +kernel
  cases hrun : runTo B (replayConfig 1 2 ["A"]) 8 ⟨{}, SimulatedBroker.new B.brokerConfig⟩ with
  | error e w => rw [hrun] at hval; cases hval
  | ok a w =>
    rw [hrun] at hval
    refine ⟨w, rfl, fun h => ?_⟩
    have hsame := h.sameHoldings "A"
    rw [Option.some.injEq, Prod.mk.injEq] at hval
    rw [hval.1, hval.2] at hsame
    exact absurd hsame (by decide +kernel)

end BacktestEngine

end TradingAgent
