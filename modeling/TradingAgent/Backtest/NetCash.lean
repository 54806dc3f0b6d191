/-
Realized results against cash. The broker's orders pair up to round trips, one for each closed position of the
engine. What a round trip has brought in cash differs from the realized result of its position by the commission
of the BUY, which the engine leaves out, so the two are equal exactly if that commission is zero.
-/
import TradingAgent.Lib.RoundTrips
import TradingAgent.Backtest.Outcomes
import TradingAgent.Backtest.OrderLimits
import TradingAgent.Report.Metrics

namespace TradingAgent

open Wp

namespace BacktestEngine

/-! ## Round trips -/

/-- The fill price of an order. -/
def fillOf (r : OrderResult) : Decimal := r.filledPrice.getD 0

/-- The cash paid for a BUY, commission included. -/
def paid (r : OrderResult) : Decimal := fillOf r * r.quantity + r.commission

/-- The cash received for a SELL, net of its commission. -/
def received (r : OrderResult) : Decimal := fillOf r * r.quantity - r.commission

/-- The next filled order: a BUY opens its symbol, a SELL closes it. -/
def addOrder (trips : RoundTrips.Book String OrderResult) (r : OrderResult) : RoundTrips.Book String OrderResult :=
  match r.side with
  | .buy => trips.enter r.symbol r
  | .sell => trips.leave r.symbol r

/-- The round trips of the broker's orders. -/
def trips (w : Backtest) : RoundTrips.Book String OrderResult := w.broker.orders.foldl addOrder .empty

/-- The cash that a round trip has brought. -/
def netCash (t : OrderResult × OrderResult) : Decimal := RoundTrips.Book.net paid received t

/-- The BUY is filled at a price other than zero and costs no commission. -/
def FreeBuy (r : OrderResult) : Prop := fillOf r ≠ 0 ∧ r.commission = 0

/-- The unit cost that the engine books for a BUY: its fill price, or another one for a fill price of zero. -/
structure BookedAt (r : OrderResult) (cost : Decimal) : Prop where
  quantity_pos : 0 < r.quantity
  atFill : fillOf r ≠ 0 → cost = fillOf r
  atZero : fillOf r = 0 → 0 < cost ∧ r.commission = 0

/-- The realized result of a closed position leaves out the commission of its BUY. -/
def Accounted (pos : PositionRecord) (t : OrderResult × OrderResult) : Prop :=
  ∃ cost, BookedAt t.1 cost ∧
    pos.realizedPnl = some (netCash t + (t.1.commission - (cost - fillOf t.1) * t.1.quantity))

/-- The realized result is the cash that the round trip has brought exactly if the BUY was free. -/
theorem Accounted.realizedPnl_iff {pos : PositionRecord} {t : OrderResult × OrderResult} (h : Accounted pos t) :
    pos.realizedPnl = some (netCash t) ↔ FreeBuy t.1 := by
  obtain ⟨cost, hbooked, hpnl⟩ := h
  unfold FreeBuy
  rw [hpnl, Option.some.injEq, add_eq_left]
  by_cases hfill : fillOf t.1 = 0
  · obtain ⟨hcost, hfee⟩ := hbooked.atZero hfill
    have hquantity : (0 : Decimal) < t.1.quantity := Int.cast_pos.2 hbooked.quantity_pos
    have hpos := mul_pos hcost hquantity
    refine iff_of_false (fun h => ?_) fun h => h.1 hfill
    rw [hfee, hfill, sub_zero] at h
    linarith
  · rw [hbooked.atFill hfill, sub_self, zero_mul, sub_zero, and_iff_right hfill]

/-! ## The accounts -/

variable (B : Bench) (config : BacktestConfig)

/-- What holds of cash, orders and closed positions at any time: the cash is what the orders have left of the
capital, the broker's positions are the open BUYs, and every closed position stands for a round trip. -/
structure Accounts (w : Backtest) : Prop where
  cash : w.broker.cash = B.brokerConfig.initialCapital + (trips w).cash paid received
  shares : ∀ symbol, (w.broker.openPosition symbol).map (·.quantity) = ((trips w).opened.get? symbol).map (·.quantity)
  closed : List.Forall₂ Accounted w.engine.closedPositions (trips w).closed

/-- As long as no exception has ended the run, the engine's positions are the open BUYs as well. -/
structure HeldAccounts (w : Backtest) : Prop extends Accounts B w where
  held : ∀ symbol pos, w.engine.positions.get? symbol = some pos →
    ∃ r, (trips w).opened.get? symbol = some r ∧ r.quantity = pos.quantity ∧ BookedAt r pos.avgCost
  unheld : ∀ symbol, w.engine.positions.get? symbol = none → (trips w).opened.get? symbol = none

variable {B config} {w : Backtest}

/-- The accounts read the broker's orders, cash and open quantities and the engine's positions and closed
positions. -/
theorem HeldAccounts.congr (h : HeldAccounts B w) {w' : Backtest} (horders : w'.broker.orders = w.broker.orders)
    (hcash : w'.broker.cash = w.broker.cash)
    (hshares : ∀ symbol, (w'.broker.openPosition symbol).map (·.quantity) =
      (w.broker.openPosition symbol).map (·.quantity))
    (hpositions : w'.engine.positions = w.engine.positions)
    (hclosed : w'.engine.closedPositions = w.engine.closedPositions) : HeldAccounts B w' := by
  have htrips : trips w' = trips w := by unfold trips; rw [horders]
  constructor
  · constructor
    · rw [hcash, htrips]
      exact h.cash
    · intro symbol
      rw [hshares, htrips]
      exact h.shares symbol
    · rw [hclosed, htrips]
      exact h.closed
  · rw [hpositions, htrips]
    exact h.held
  · rw [hpositions, htrips]
    exact h.unheld

theorem trips_concat {w' : Backtest} {r : OrderResult} (h : w'.broker.orders = w.broker.orders ++ [r]) :
    trips w' = addOrder (trips w) r := by
  unfold trips
  rw [h, List.foldl_append]
  rfl

/-! ## Entries -/

/-- What a filled BUY does to cash, orders and open quantities. -/
theorem Buys.books {signal : Signal} {tradingDate : ℤ} {openPrice : Decimal} {qty : ℤ} {order : OrderRequest}
    {r : OrderResult} {b' : SimulatedBroker} (h : Buys B signal tradingDate openPrice qty order r w b')
    (hw : HeldAccounts B w) (e' : BacktestEngine) :
    trips ⟨e', b'⟩ = (trips w).enter signal.symbol r ∧ b'.cash = w.broker.cash - paid r ∧
      (∀ symbol, (b'.openPosition symbol).map (·.quantity) =
        if symbol = signal.symbol then some r.quantity else (w.broker.openPosition symbol).map (·.quantity)) ∧
      r.quantity = qty := by
  obtain ⟨hsymbol, hside, htype, hquantity⟩ := h.request
  obtain ⟨d, base, hfilled⟩ := h.filled
  obtain ⟨hrsymbol, hrside, hrquantity, -⟩ := hfilled.reported
  have hnone : w.broker.openPosition order.symbol = none := by
    have hshares := hw.shares order.symbol
    rw [hsymbol, hw.unheld _ h.unheld] at hshares
    rw [hsymbol]
    exact Option.map_eq_none_iff.1 hshares
  obtain ⟨hcash, ⟨p, hp, -, -, -, hopen⟩, -⟩ := booked_buy hside hnone hfilled.booked
  refine ⟨?_, ?_, fun symbol => ?_, hrquantity.trans hquantity⟩
  · rw [trips_concat (w := w) hfilled.orders]
    unfold addOrder
    rw [hrside, hside, hrsymbol, hsymbol]
  · rw [hcash]
    unfold paid fillOf
    rw [hfilled.filledPrice, hrquantity, Option.getD_some]
  · rw [hopen, hsymbol]
    split
    · rw [Option.map_some, hp, hrquantity]
    · rfl

/-- The unit cost that the engine books is the fill price, or the positive open price for a fill at zero. -/
theorem Buys.bookedAt {signal : Signal} {tradingDate : ℤ} {openPrice : Decimal} {qty : ℤ} {order : OrderRequest}
    {r : OrderResult} {b' : SimulatedBroker} (h : Buys B signal tradingDate openPrice qty order r w b') :
    BookedAt r (fillPriceOf r openPrice) := by
  obtain ⟨hunblocked, hopen, hgreatest⟩ := riskCheck_eq_some_iff.1 h.risk
  obtain ⟨-, hside, -, hquantity⟩ := h.request
  obtain ⟨d, base, hfilled⟩ := h.filled
  obtain ⟨-, -, hrquantity, -⟩ := hfilled.reported
  have hfill : fillOf r = SimulatedBroker.fillPrice B.brokerConfig order base := by
    unfold fillOf
    rw [hfilled.filledPrice, Option.getD_some]
  refine ⟨?_, fun hne => ?_, fun hzero => ⟨?_, ?_⟩⟩
  · rw [hrquantity, hquantity]
    exact hgreatest.1.pos
  · unfold fillPriceOf
    rw [hfilled.filledPrice, hfill]
    dsimp only
    rw [if_neg (hfill ▸ hne)]
  · unfold fillPriceOf
    rw [hfilled.filledPrice]
    dsimp only
    rw [if_pos (hfill ▸ hzero)]
    exact hopen
  · rw [hfilled.commission, hside, ← hfill, hzero, zero_mul]
    unfold SimulatedBroker.calculateCommission quantize0
    dsimp only
    rw [zero_mul]
    exact_mod_cast Rounding.halfUp_intCast (K := Decimal) 0

/-- After a BUY the accounts are right, whatever the engine has recorded of it. -/
theorem Buys.accounts {signal : Signal} {tradingDate : ℤ} {openPrice : Decimal} {qty : ℤ} {order : OrderRequest}
    {r : OrderResult} {b' : SimulatedBroker} (h : Buys B signal tradingDate openPrice qty order r w b')
    (hw : HeldAccounts B w) {e' : BacktestEngine} (hclosed : e'.closedPositions = w.engine.closedPositions) :
    Accounts B ⟨e', b'⟩ := by
  obtain ⟨htrips, hcash, hshares, -⟩ := h.books hw e'
  constructor
  · rw [htrips, RoundTrips.Book.cash_enter _ _ (hw.unheld _ h.unheld), hcash, hw.cash]
    ring
  · intro symbol
    rw [hshares, htrips]
    unfold RoundTrips.Book.enter
    rw [Dict.get?_set]
    split
    · rfl
    · exact hw.shares symbol
  · rw [htrips, hclosed]
    exact hw.closed

/-- A signal keeps the accounts; where it raises, the engine may lack the position that the broker has bought. -/
theorem executeSignal_accounts (h : HeldAccounts B w) (tradingDate : ℤ) (signal : Signal) :
    wp (executeSignal B config tradingDate signal) (fun _ w' => HeldAccounts B w') (fun _ w' => Accounts B w') w := by
  refine wp_mono (executeSignal_outcome B config tradingDate signal w) ?_ ?_
  · rintro _ w' (rfl | ⟨openPrice, qty, order, r, limits, b', hbuys, rfl⟩)
    · exact h
    obtain ⟨htrips, -, -, hquantity⟩ := hbuys.books h
      (entered config signal tradingDate qty openPrice r limits w.engine)
    refine ⟨hbuys.accounts h rfl, fun symbol pos hpos => ?_, fun symbol hnone => ?_⟩
    · rw [htrips]
      unfold entered at hpos
      unfold RoundTrips.Book.enter
      rw [Dict.get?_set] at hpos ⊢
      split at hpos
      · cases hpos
        rename_i hsymbol
        rw [if_pos hsymbol]
        exact ⟨r, rfl, hquantity, hbuys.bookedAt⟩
      · rename_i hsymbol
        rw [if_neg hsymbol]
        exact h.held symbol pos hpos
    · rw [htrips]
      unfold entered at hnone
      unfold RoundTrips.Book.enter
      rw [Dict.get?_set] at hnone ⊢
      split at hnone
      · cases hnone
      · rename_i hsymbol
        rw [if_neg hsymbol]
        exact h.unheld symbol hnone
  · rintro _ w' (rfl | ⟨openPrice, qty, order, r, b', hbuys, rfl⟩)
    · exact h.toAccounts
    · exact hbuys.accounts h rfl

/-! ## Exits -/

/-- What a filled SELL of a tracked position does to orders, cash and open positions: it ends the round trip that
the last BUY of the symbol began, with the whole quantity at the close of the day. -/
theorem Sells.books {symbol : String} {tradingDate : ℤ} {pos : PositionRecord} {close : Decimal}
    {order : OrderRequest} {r : OrderResult} {b' : SimulatedBroker}
    (h : Sells B symbol tradingDate pos close order r w b') (hw : HeldAccounts B w) (e' : BacktestEngine) :
    trips ⟨e', b'⟩ = (trips w).leave symbol r ∧ b'.cash = w.broker.cash + received r ∧
      (∀ s, b'.openPosition s = if s = symbol then none else w.broker.openPosition s) ∧
      fillOf r = close ∧ r.quantity = pos.quantity := by
  obtain ⟨hsymbol, hside, htype, hquantity, hprice⟩ := h.request
  obtain ⟨d, base, hfilled⟩ := h.filled
  obtain ⟨hrsymbol, hrside, hrquantity, -⟩ := hfilled.reported
  obtain ⟨buy, hbuy, hbuyQty, hbooked⟩ := hw.held symbol pos h.held
  -- the broker's shares are those of the open BUY
  obtain ⟨p, hp, hpQty⟩ : ∃ p, w.broker.openPosition order.symbol = some p ∧ order.quantity = p.quantity := by
    have hshares := hw.shares symbol
    rw [hbuy, Option.map_some] at hshares
    obtain ⟨p, hp, hpQty⟩ := Option.map_eq_some_iff.1 hshares
    exact ⟨p, hsymbol ▸ hp, by rw [hquantity, hpQty, hbuyQty]⟩
  obtain ⟨hcash, hopen, -⟩ := booked_sell hside hp hpQty hfilled.booked
  have hfillPrice : SimulatedBroker.fillPrice B.brokerConfig order base = fillOf r := by
    unfold fillOf
    rw [hfilled.filledPrice, Option.getD_some]
  have htrips : trips ⟨e', b'⟩ = (trips w).leave symbol r := by
    rw [trips_concat (w := w) hfilled.orders]
    unfold addOrder
    rw [hrside, hside, hrsymbol, hsymbol]
  refine ⟨htrips, ?_, ?_, ?_, hrquantity.trans hquantity⟩
  · rw [hcash, hfillPrice]
    unfold received
    rw [hrquantity]
  · intro s
    rw [hopen, hsymbol]
  · have hbase := hfilled.basePrice
    rw [htype, hprice] at hbase
    cases hbase
    rw [← hfillPrice]
    unfold SimulatedBroker.fillPrice
    rw [htype]

/-- After a filled SELL the accounts are right again once the engine has moved the position. -/
theorem Sells.accounts {symbol : String} {tradingDate : ℤ} {pos : PositionRecord} {close : Decimal}
    {order : OrderRequest} {r : OrderResult} {b' : SimulatedBroker}
    (h : Sells B symbol tradingDate pos close order r w b') (hw : HeldAccounts B w) {e' : BacktestEngine}
    (hpositions : e'.positions = w.engine.positions.erase symbol) {exitReason : String}
    (hclosed : e'.closedPositions = w.engine.closedPositions ++ [exitPosition pos tradingDate exitReason close r]) :
    HeldAccounts B ⟨e', b'⟩ := by
  obtain ⟨htrips, hcash, hopen, hfill, hquantity⟩ := h.books hw e'
  obtain ⟨buy, hbuy, hbuyQty, hbooked⟩ := hw.held symbol pos h.held
  have hleave := RoundTrips.Book.leave_eq hbuy r
  constructor
  · constructor
    · rw [htrips, RoundTrips.Book.cash_leave _ _ hbuy, hcash, hw.cash]
      ring
    · intro s
      rw [hopen, htrips, hleave, Dict.get?_erase]
      split
      · rfl
      · exact hw.shares s
    · rw [htrips, hleave, hclosed]
      refine List.rel_append hw.closed (.cons ⟨pos.avgCost, hbooked, ?_⟩ .nil)
      show some (exitPnl pos close r) = _
      unfold exitPnl netCash RoundTrips.Book.net received paid
      rw [hfill, hquantity, hbuyQty]
      congr 1
      ring
  · intro s q hq
    rw [hpositions, Dict.get?_erase] at hq
    rw [htrips, hleave, Dict.get?_erase]
    split at hq
    · cases hq
    · rename_i hne
      rw [if_neg hne]
      exact hw.held s q hq
  · intro s hnone
    rw [hpositions, Dict.get?_erase] at hnone
    rw [htrips, hleave, Dict.get?_erase]
    split at hnone
    · rename_i heq
      rw [if_pos heq]
    · rename_i hne
      rw [if_neg hne]
      exact hw.unheld s hnone

/-- An exit keeps the accounts, also where it raises. -/
theorem keeps_executeExit_accounts (symbol : String) (tradingDate : ℤ) (exitReason : String) :
    Keeps (HeldAccounts B) (executeExit B symbol tradingDate exitReason) := by
  intro w h
  refine wp_mono (executeExit_outcome B symbol tradingDate exitReason w) ?_ ?_
  · rintro _ w' (rfl | ⟨pos, close, order, r, reason, b', hsells, rfl⟩)
    · exact h
    · exact hsells.accounts h rfl rfl
  · rintro _ w' (rfl | ⟨pos, close, order, r, b', hsells, rfl⟩)
    · exact h
    · exact hsells.accounts h rfl rfl

/-! ## The steps of a run -/

theorem keeps_startDay_accounts (tradingDate : ℤ) : Keeps (HeldAccounts B) (startDay B tradingDate) := by
  intro w h
  unfold startDay SimulatedBroker.setCurrentDate
  rw [wp_bind, wp_modifyEngine, wp_onBroker, wp_modify]
  refine h.congr rfl rfl (fun symbol => ?_) rfl rfl
  rw [SimulatedBroker.openPosition_revalued B.loader rfl symbol, Option.map_map]
  refine congrArg (fun f => (w.broker.openPosition symbol).map f) (funext fun p => ?_)
  exact (SimulatedBroker.revalue_frame B.loader tradingDate symbol p).2.1

theorem keeps_checkExits_accounts (tradingDate : ℤ) : Keeps (HeldAccounts B) (checkExits B config tradingDate) := by
  unfold checkExits
  refine keeps_bind keeps_get fun w => keeps_bind ?_ fun found => ?_
  · exact keeps_collectExits B config (fun w _ h => h.congr rfl rfl (fun _ => rfl) rfl rfl) _ _
  · exact keeps_forM fun e _ => keeps_executeExit_accounts e.1 tradingDate e.2

theorem accounts_runInvariant : RunInvariant B config (HeldAccounts B) (Accounts B) where
  weaken _ h := h.toAccounts
  start := keeps_startDay_accounts
  exits := keeps_checkExits_accounts
  clear _ h := h.congr rfl rfl (fun _ => rfl) rfl rfl
  entry tradingDate signal _ h := executeSignal_accounts h tradingDate signal
  generate := keeps_generateSignals B config (fun _ _ h => h.congr rfl rfl (fun _ => rfl) rfl rfl)
  snapshot := keeps_recordSnapshot B (fun _ _ _ _ h => h.congr rfl rfl (fun _ => rfl) rfl rfl)
  exit := keeps_executeExit_accounts

/-- A reset engine with a new broker has no orders and no positions. -/
theorem prepare_accounts (e : BacktestEngine) :
    wp (prepare B config) (fun _ w => HeldAccounts B w) (fun _ w => Accounts B w)
      ⟨e, SimulatedBroker.new B.brokerConfig⟩ := by
  have hnew : ∀ e' : BacktestEngine, e'.positions = Dict.empty → e'.closedPositions = [] →
      HeldAccounts B ⟨e', SimulatedBroker.new B.brokerConfig⟩ := by
    intro e' hpositions hclosed
    constructor
    · constructor
      · show _ = _ + RoundTrips.Book.cash paid received RoundTrips.Book.empty
        rw [RoundTrips.Book.cash_empty, add_zero]
        rfl
      · exact fun _ => rfl
      · rw [hclosed]
        exact .nil
    · intro symbol pos hpos
      rw [hpositions] at hpos
      cases hpos
    · exact fun _ _ => rfl
  unfold prepare
  rw [wp_bind, wp_modify]
  cases config.mode with
  | technical => exact hnew _ rfl rfl
  | llmLive => exact hnew _ rfl rfl
  | llmReplay =>
    cases B.sessionFactory with
    | none => exact (hnew _ rfl rfl).toAccounts
    | some rows => exact hnew _ rfl rfl

theorem Reached.accounts {e : BacktestEngine} (hw : Reached B config ⟨e, SimulatedBroker.new B.brokerConfig⟩ w) :
    Accounts B w :=
  accounts_runInvariant.reached (prepare_accounts e) hw

/-! ## Realized results and cash -/

/-- A closed position counts as winning. -/
def Wins (pos : PositionRecord) : Prop := 0 < (PerformanceCalculator.calculateWinRate [pos]).2.1

variable (B)

/-- The realized results are the cash of the round trips: each by itself, their sum once everything is sold, and
in what counts as winning. -/
structure RealizedIsNetCash (w : Backtest) : Prop where
  each : List.Forall₂ (fun pos t => pos.realizedPnl = some (netCash t)) w.engine.closedPositions (trips w).closed
  total : (∀ symbol, w.broker.openPosition symbol = none) →
    (w.engine.closedPositions.map (·.realizedPnl.getD 0)).sum = w.broker.cash - B.brokerConfig.initialCapital
  wins : List.Forall₂ (fun pos t => Wins pos ↔ 0 < netCash t) w.engine.closedPositions (trips w).closed

variable {B}

theorem wins_iff {pos : PositionRecord} {x : Decimal} (h : pos.realizedPnl = some x) : Wins pos ↔ 0 < x := by
  unfold Wins PerformanceCalculator.calculateWinRate
  by_cases hx : 0 < x
  · simp [h, hx, not_le.2 hx]
  · simp [h, hx, not_lt.1 hx]

/-- Where related pairs satisfy a further relation exactly if their second part has a property, the lists do
exactly if all second parts have it. -/
theorem forall₂_iff_forall {α β : Type} {R S : α → β → Prop} {P : β → Prop} (hR : ∀ a b, R a b → (S a b ↔ P b))
    {as : List α} {bs : List β} (h : List.Forall₂ R as bs) : List.Forall₂ S as bs ↔ ∀ b ∈ bs, P b := by
  induction h with
  | nil => exact iff_of_true .nil nofun
  | cons hab _ ih => rw [List.forall₂_cons, List.forall_mem_cons, hR _ _ hab, ih]

/-- If every realized result is the cash of its round trip, so are their sum and what counts as winning. -/
theorem Accounts.realizedIsNetCash (h : Accounts B w)
    (heach : List.Forall₂ (fun pos t => pos.realizedPnl = some (netCash t)) w.engine.closedPositions (trips w).closed) :
    RealizedIsNetCash B w where
  each := heach
  total hflat := by
    have hopened : ∀ symbol, (trips w).opened.get? symbol = none := by
      intro symbol
      have hshares := h.shares symbol
      rw [hflat symbol] at hshares
      exact Option.map_eq_none_iff.1 hshares.symm
    have hsum : w.engine.closedPositions.map (·.realizedPnl.getD 0) = (trips w).closed.map netCash := by
      rw [← List.forall₂_eq_eq_eq, List.forall₂_map_left_iff, List.forall₂_map_right_iff]
      exact heach.imp fun pos t hpnl => by rw [hpnl, Option.getD_some]
    rw [hsum, h.cash, RoundTrips.Book.cash_of_flat _ _ hopened, add_sub_cancel_left]
    rfl
  wins := heach.imp fun pos t hpnl => wins_iff hpnl

theorem Accounts.netCash_iff (h : Accounts B w) :
    RealizedIsNetCash B w ↔ ∀ t ∈ (trips w).closed, FreeBuy t.1 := by
  have heach := forall₂_iff_forall (fun pos t (hacc : Accounted pos t) => hacc.realizedPnl_iff) h.closed
  constructor
  · intro hnet
    exact heach.1 hnet.each
  · intro hfree
    exact h.realizedIsNetCash (heach.2 hfree)

/-- In the run of a new broker the realized results are the cash of the round trips exactly if every BUY that has
been closed was filled at a price other than zero and cost no commission. -/
theorem realizedIsNetCash_iff (e : BacktestEngine) :
    (∀ w, Reached B config ⟨e, SimulatedBroker.new B.brokerConfig⟩ w → RealizedIsNetCash B w) ↔
      ∀ w, Reached B config ⟨e, SimulatedBroker.new B.brokerConfig⟩ w → ∀ t ∈ (trips w).closed, FreeBuy t.1 := by
  constructor
  · intro h w hw
    exact hw.accounts.netCash_iff.1 (h w hw)
  · intro h w hw
    exact hw.accounts.netCash_iff.2 (h w hw)

/-- Three days of one symbol: decided on the first, bought at 1001 won on the second, and sold at 1003 won when
the holding time is over. -/
def evenDays : HistoricalDataLoader where
  rows := [
    { symbol := "A", date := 1, openPrice := 1000, high := 1000, low := 1000, close := 1000, volume := 10 },
    { symbol := "A", date := 2, openPrice := 1000, high := 1000, low := 1000, close := 1000, volume := 10 },
    { symbol := "A", date := 12, openPrice := 1003, high := 1003, low := 1003, close := 1003, volume := 10 }]
  sorted := by decide
  unique := by decide

/-- The position counts as a win of 44 won, while the round trip has cost 106 won. -/
theorem not_realizedIsNetCash_even :
    let B := replayBench evenDays [buyDecision 1 "A" 1] {}
    ¬ ∀ w, Reached B (replayConfig 1 12 ["A"]) ⟨{}, SimulatedBroker.new B.brokerConfig⟩ w → RealizedIsNetCash B w := by
  intro B h
  have hfacts : ∀ w, w = left (runTo B (replayConfig 1 12 ["A"]) 15 ⟨{}, SimulatedBroker.new B.brokerConfig⟩) →
      w.engine.closedPositions.map (·.realizedPnl) = [some 44] ∧ (trips w).closed.map netCash = [-106] := by
    rintro _ rfl
    decide +kernel
  obtain ⟨hpnl, hnet⟩ := hfacts _ rfl
  have heach := (h _ (.step 15)).each
  have hmap : List.Forall₂ (· = ·) [some (44 : Decimal)] [some (-106 : Decimal)] := by
    rw [← hpnl, show [some (-106 : Decimal)] = [-106].map some from rfl, ← hnet, List.map_map,
      List.forall₂_map_left_iff, List.forall₂_map_right_iff]
    exact heach
  rw [List.forall₂_eq_eq_eq] at hmap
  exact absurd hmap (by decide)

end BacktestEngine

end TradingAgent
