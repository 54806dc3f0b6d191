/-
The limits on the orders of a backtest. The risk check finds the largest order that fits the signal, the caps and
the cash at the open price; the broker fills it at the slipped price and takes a commission on top. So the orders
stay within a limit exactly if one of the four bounds, in whole shares at the open price, leaves room in it for
the slippage and the commission.
-/
import TradingAgent.Backtest.DoubleEntry
import TradingAgent.Backtest.EndOfRun
import Mathlib.Data.Finset.Max
import Mathlib.Order.Bounds.Basic

namespace TradingAgent

open Wp

namespace BacktestEngine

variable (B : Bench) (config : BacktestConfig)

/-! ## What the risk check is for -/

/-- The won that a position may take of the total value. -/
def pctBudget (w : Backtest) : Decimal := w.broker.getTotalValue * B.settings.maxPositionPct / 100

/-- An order of so many shares fits the signal, the two caps and the cash at a price. -/
structure FitsAt (w : Backtest) (quantity : ℤ) (price : Decimal) (n : ℤ) : Prop where
  pos : 0 < n
  signal : n ≤ quantity
  pct : n * price ≤ pctBudget B w
  krw : n * price ≤ B.settings.maxPositionSizeKrw
  cash : n * price ≤ w.broker.cash

/-- What bounds an order: the signal, the two caps and the cash, in whole shares at a price. -/
def shareBounds (w : Backtest) (quantity : ℤ) (price : Decimal) : List ℤ :=
  [quantity, Rounding.trunc (pctBudget B w / price), Rounding.trunc (B.settings.maxPositionSizeKrw / price),
    Rounding.trunc (w.broker.cash / price)]

/-- Neither the number of positions nor that of the day's trades nor the symbol itself bars an entry. -/
structure Unblocked (w : Backtest) (symbol : String) : Prop where
  positions : (w.engine.positions.items.length : ℤ) < B.settings.maxPortfolioPositions
  trades : (w.engine.dailyTradeCount : ℤ) < B.settings.maxDailyTrades
  unheld : w.engine.positions.get? symbol = none

variable {B} {w : Backtest}

theorem fitsAt_iff {quantity n : ℤ} {price : Decimal} (hprice : 0 < price) :
    FitsAt B w quantity price n ↔ 0 < n ∧ ∀ m ∈ shareBounds B w quantity price, n ≤ m := by
  unfold shareBounds
  simp only [List.forall_mem_cons, List.not_mem_nil, false_imp_iff, implies_true, and_true]
  constructor
  · intro h
    exact ⟨h.pos, h.signal, (Rounding.le_trunc_div_iff_of_pos hprice h.pos).2 h.pct,
      (Rounding.le_trunc_div_iff_of_pos hprice h.pos).2 h.krw,
      (Rounding.le_trunc_div_iff_of_pos hprice h.pos).2 h.cash⟩
  · rintro ⟨hn, hsignal, hpct, hkrw, hcash⟩
    exact ⟨hn, hsignal, (Rounding.le_trunc_div_iff_of_pos hprice hn).1 hpct,
      (Rounding.le_trunc_div_iff_of_pos hprice hn).1 hkrw, (Rounding.le_trunc_div_iff_of_pos hprice hn).1 hcash⟩

theorem exists_least_bound (quantity : ℤ) (price : Decimal) :
    ∃ q ∈ shareBounds B w quantity price, ∀ m ∈ shareBounds B w quantity price, q ≤ m := by
  obtain ⟨q, hq, hleast⟩ := Finset.exists_min_image (shareBounds B w quantity price).toFinset id
    ⟨quantity, List.mem_toFinset.2 List.mem_cons_self⟩
  exact ⟨q, List.mem_toFinset.1 hq, fun m hm => hleast m (List.mem_toFinset.2 hm)⟩

/-- The largest order that fits is the least of the bounds, if that is a share at all. -/
theorem isGreatest_fitsAt_iff {quantity q : ℤ} {price : Decimal} (hprice : 0 < price) :
    IsGreatest {n | FitsAt B w quantity price n} q ↔ 0 < q ∧ q ∈ shareBounds B w quantity price ∧
      ∀ m ∈ shareBounds B w quantity price, q ≤ m := by
  constructor
  · rintro ⟨hq, hgreatest⟩
    obtain ⟨hpos, hle⟩ := (fitsAt_iff hprice).1 hq
    obtain ⟨m, hm, hleast⟩ := exists_least_bound (B := B) (w := w) quantity price
    have hfits : FitsAt B w quantity price m := (fitsAt_iff hprice).2 ⟨hpos.trans_le (hle m hm), hleast⟩
    exact ⟨hpos, le_antisymm (hle m hm) (hgreatest hfits) ▸ hm, hle⟩
  · rintro ⟨hpos, hq, hle⟩
    exact ⟨(fitsAt_iff hprice).2 ⟨hpos, hle⟩, fun n hn => ((fitsAt_iff hprice).1 hn).2 q hq⟩

/-- The risk check passes the largest order that fits at its price. -/
theorem riskCheck_eq_some_iff {symbol : String} {quantity q : ℤ} {price : Decimal} :
    riskCheck B w symbol quantity price = some q ↔
      Unblocked B w symbol ∧ 0 < price ∧ IsGreatest {n | FitsAt B w quantity price n} q := by
  unfold riskCheck
  by_cases hpositions : (w.engine.positions.items.length : ℤ) ≥ B.settings.maxPortfolioPositions
  · rw [if_pos hpositions]
    exact iff_of_false nofun fun h => absurd h.1.positions (not_lt.2 hpositions)
  by_cases htrades : (w.engine.dailyTradeCount : ℤ) ≥ B.settings.maxDailyTrades
  · rw [if_neg hpositions, if_pos htrades]
    exact iff_of_false nofun fun h => absurd h.1.trades (not_lt.2 htrades)
  by_cases hheld : w.engine.positions.contains symbol = true
  · rw [if_neg hpositions, if_neg htrades, if_pos hheld]
    refine iff_of_false nofun fun h => ?_
    rw [(Dict.contains_eq_false_iff _ _).2 h.1.unheld] at hheld
    cases hheld
  have hunblocked : Unblocked B w symbol := ⟨not_le.1 hpositions, not_le.1 htrades,
    (Dict.contains_eq_false_iff _ _).1 (Bool.eq_false_iff.2 hheld)⟩
  rw [if_neg hpositions, if_neg htrades, if_neg hheld, and_iff_right hunblocked]
  dsimp only
  by_cases hprice : price > 0
  · simp only [if_pos hprice]
    rw [and_iff_right hprice]
    -- a positive number of shares is at most the least quotient exactly if it fits
    have hfits : ∀ n : ℤ, FitsAt B w quantity price n ↔ 0 < n ∧
        n ≤ min (min (min quantity (Rounding.trunc (pctBudget B w / price)))
          (Rounding.trunc (B.settings.maxPositionSizeKrw / price))) (Rounding.trunc (w.broker.cash / price)) := by
      intro n
      rw [fitsAt_iff hprice, shareBounds]
      simp only [List.forall_mem_cons, List.not_mem_nil, false_imp_iff, implies_true, and_true, le_min_iff, and_assoc]
    show (if min (min (min quantity (Rounding.trunc (pctBudget B w / price)))
          (Rounding.trunc (B.settings.maxPositionSizeKrw / price))) (Rounding.trunc (w.broker.cash / price)) ≤ 0
        then none else some _) = some q ↔ _
    split
    · rename_i hzero
      refine iff_of_false nofun fun h => ?_
      obtain ⟨hq, hle⟩ := (hfits q).1 h.1
      exact absurd (hq.trans_le hle) (not_lt.2 hzero)
    · rename_i hpos
      rw [Option.some.injEq]
      have hgreatest : IsGreatest {n | FitsAt B w quantity price n} _ :=
        ⟨(hfits _).2 ⟨not_le.1 hpos, le_rfl⟩, fun n hn => ((hfits n).1 hn).2⟩
      constructor
      · rintro rfl
        exact hgreatest
      · intro h
        exact hgreatest.unique h
  · simp only [if_neg hprice]
    refine iff_of_false ?_ fun h => hprice h.1
    rw [if_pos (min_le_of_left_le (min_le_right _ _))]
    exact nofun

/-! ## The turn of a signal -/

variable (B)

/-- A run up to the moment at which the first pending signals of a day are carried out; the others are still to
come. -/
def runToTurn (earlier : List ℤ) (tradingDate : ℤ) (k : ℕ) : M (List Signal) := do
  prepare B config
  runAll (loopSteps B config earlier)
  startDay B tradingDate
  checkExits B config tradingDate
  let signals := (← get).engine.pendingSignals
  modifyEngine (fun e => { e with pendingSignals := [] })
  (signals.take k).forM (executeSignal B config tradingDate)
  pure (signals.drop k)

/-- In the run from a state it is the turn of a signal. -/
def TurnOf (w₀ : Backtest) (tradingDate : ℤ) (signal : Signal) (w : Backtest) : Prop :=
  ∃ earlier later k rest, config.symbols ≠ [] ∧ tradingDates B config = earlier ++ tradingDate :: later ∧
    runToTurn B config earlier tradingDate k w₀ = .ok (signal :: rest) w

/-- The price at which a BUY is filled that opens at a price. -/
def fillAt (openPrice : Decimal) : Decimal := SimulatedBroker.calculateSlippage B.brokerConfig .buy openPrice

/-- The cash that a BUY of so many shares takes. -/
def costAt (openPrice : Decimal) (q : ℤ) : Decimal :=
  fillAt B openPrice * q + SimulatedBroker.calculateCommission B.brokerConfig .buy (fillAt B openPrice * q)

/-- What the limits ask of the outcome of an order: no lack of funds, and the position of the fill within the caps. -/
def OutcomeWithin (w : Backtest) (openPrice : Decimal) (q : ℤ) : EStateM.Result Exn SimulatedBroker OrderResult → Prop
  | .ok r _ => q * fillPriceOf r openPrice ≤ pctBudget B w ∧ q * fillPriceOf r openPrice ≤ B.settings.maxPositionSizeKrw
  | .error (.insufficientFunds _ _) _ => False
  | .error _ _ => True

/-- A BUY that passes the risk check is filled within the limits. -/
def WithinLimits (tradingDate : ℤ) (signal : Signal) (w : Backtest) : Prop :=
  ∀ openPrice q order, signal.action = .buy → B.loader.getOpenPrice signal.symbol tradingDate = some openPrice →
    riskCheck B w signal.symbol signal.quantity openPrice = some q →
    OrderRequest.make? signal.symbol .buy .market q none "backtest_entry" = some order →
    OutcomeWithin B w openPrice q (SimulatedBroker.placeOrder B.loader B.brokerConfig order w.broker)

/-- If nothing bars the BUY and every bound leaves a share, then for each of the three limits one of the bounds
leaves room: that many shares keep the cap at the fill price, or the cash with the commission on top. -/
def RoomToFill (tradingDate : ℤ) (signal : Signal) (w : Backtest) : Prop :=
  ∀ openPrice, signal.action = .buy → B.loader.getOpenPrice signal.symbol tradingDate = some openPrice →
    Unblocked B w signal.symbol → 0 < openPrice → (∀ n ∈ shareBounds B w signal.quantity openPrice, 0 < n) →
    (∃ n ∈ shareBounds B w signal.quantity openPrice, n * fillAt B openPrice ≤ pctBudget B w) ∧
      (∃ n ∈ shareBounds B w signal.quantity openPrice, n * fillAt B openPrice ≤ B.settings.maxPositionSizeKrw) ∧
      ∃ n ∈ shareBounds B w signal.quantity openPrice, costAt B openPrice n ≤ w.broker.cash

variable {B config}

/-- A BUY of the day is filled at the slipped open price if the cash covers its cost, and is refused otherwise. -/
theorem placeOrder_market_buy {b : SimulatedBroker} {tradingDate : ℤ} (hdate : b.currentDate = some tradingDate)
    {order : OrderRequest} (hside : order.side = .buy) (htype : order.orderType = .market) {openPrice : Decimal}
    (hopen : B.loader.getOpenPrice order.symbol tradingDate = some openPrice) :
    wp (SimulatedBroker.placeOrder B.loader B.brokerConfig order)
      (fun r _ => r.filledPrice = some (fillAt B openPrice) ∧ costAt B openPrice order.quantity ≤ b.cash)
      (fun e _ => (∃ need held, e = .insufficientFunds need held) ∧ b.cash < costAt B openPrice order.quantity) b := by
  unfold SimulatedBroker.placeOrder SimulatedBroker.ensureDateSet SimulatedBroker.getFillPrice
    SimulatedBroker.executeOrder SimulatedBroker.executeBuy SimulatedBroker.fillPrice
  simp only [wp_bind, wp_get, hdate, wp_pure, htype, hopen, hside, wp_ite, wp_throw, wp_modify]
  split
  · rename_i hlack
    exact ⟨⟨_, _, rfl⟩, hlack⟩
  · rename_i hcovered
    exact ⟨rfl, not_lt.1 hcovered⟩

theorem exists_entryOrder (symbol : String) {q : ℤ} (hq : 0 < q) :
    ∃ order, OrderRequest.make? symbol .buy .market q none "backtest_entry" = some order := by
  unfold OrderRequest.make?
  rw [dif_pos hq]
  exact ⟨_, rfl⟩

/-- An order that fits the caps at the open price fits them at a fill price of zero. -/
theorem fillPriceOf_le_iff {r : OrderResult} {openPrice fill budget : Decimal} {q : ℤ} (hr : r.filledPrice = some fill)
    (hq : 0 < q) (hopen : 0 < openPrice) (hfits : q * openPrice ≤ budget) :
    q * fillPriceOf r openPrice ≤ budget ↔ q * fill ≤ budget := by
  unfold fillPriceOf
  rw [hr]
  dsimp only
  split
  · rename_i hzero
    have hbudget : 0 ≤ budget := (mul_nonneg (Int.cast_nonneg hq.le) hopen.le).trans hfits
    exact iff_of_true hfits (by rwa [hzero, mul_zero])
  · exact Iff.rfl

/-- What so many shares keep within a budget, fewer keep as well. -/
theorem mul_fill_le_of_le {fill budget : Decimal} {q n : ℤ} (hq : 0 ≤ q) (hqn : q ≤ n) (hbudget : 0 ≤ budget)
    (h : n * fill ≤ budget) : q * fill ≤ budget := by
  rcases le_total 0 fill with hfill | hfill
  · exact (mul_le_mul_of_nonneg_right (Int.cast_le.2 hqn) hfill).trans h
  · exact (mul_nonpos_of_nonneg_of_nonpos (Int.cast_nonneg hq) hfill).trans hbudget

/-- The cost of a BUY is its whole amount with the commission on top. -/
theorem costAt_eq_withShare (openPrice : Decimal) : ∃ fill : ℤ, ∀ q : ℤ,
    costAt B openPrice q = Rounding.withShare (B.brokerConfig.commissionBuyPct / 100) (fill * q) := by
  refine ⟨Rounding.halfUp (openPrice * (1 + B.brokerConfig.slippageBps / 10000)), fun q => ?_⟩
  unfold costAt fillAt SimulatedBroker.calculateSlippage SimulatedBroker.calculateCommission quantize0
    Rounding.withShare
  push_cast
  rfl

/-- If the cash covers so many shares, it covers fewer as well, whatever the rates are. -/
theorem costAt_le_of_le {openPrice cash : Decimal} {q n : ℤ} (hq : 0 ≤ q) (hqn : q ≤ n) (hcash : 0 ≤ cash)
    (h : costAt B openPrice n ≤ cash) : costAt B openPrice q ≤ cash := by
  obtain ⟨fill, hcost⟩ := costAt_eq_withShare (B := B) openPrice
  rw [hcost] at h ⊢
  -- either the cost grows with the number of shares or it is never positive
  have hcase : Rounding.withShare (B.brokerConfig.commissionBuyPct / 100) (fill * q) ≤
        Rounding.withShare (B.brokerConfig.commissionBuyPct / 100) (fill * n) ∨
      Rounding.withShare (B.brokerConfig.commissionBuyPct / 100) (fill * q) ≤ 0 := by
    rw [← Rounding.withShare_zero (B.brokerConfig.commissionBuyPct / 100)]
    rcases le_total (-1) (B.brokerConfig.commissionBuyPct / 100) with hrate | hrate <;>
      rcases le_total 0 fill with hfill | hfill
    · exact .inl (Rounding.withShare_mono hrate (mul_le_mul_of_nonneg_left hqn hfill))
    · exact .inr (Rounding.withShare_mono hrate (mul_nonpos_of_nonpos_of_nonneg hfill hq))
    · exact .inr (Rounding.withShare_anti hrate (mul_nonneg hfill hq))
    · exact .inl (Rounding.withShare_anti hrate (mul_le_mul_of_nonpos_left hqn hfill))
  rcases hcase with hle | hle
  · exact (Int.cast_le.2 hle).trans h
  · exact (Int.cast_nonpos.2 hle).trans hcash

/-- The largest order that fits keeps a limit at the fill price exactly if one of the bounds does. -/
theorem exists_bound_iff {quantity q : ℤ} {price : Decimal} (hprice : 0 < price)
    (hgreatest : IsGreatest {n | FitsAt B w quantity price n} q) {P : ℤ → Prop}
    (hmono : ∀ n, q ≤ n → P n → P q) : (∃ n ∈ shareBounds B w quantity price, P n) ↔ P q := by
  obtain ⟨-, hq, hle⟩ := (isGreatest_fitsAt_iff hprice).1 hgreatest
  constructor
  · rintro ⟨n, hn, h⟩
    exact hmono n (hle n hn) h
  · exact fun h => ⟨q, hq, h⟩

/-- An order that the risk check has passed has an outcome within the limits exactly if it fits them at the price
at which it is filled. -/
theorem outcomeWithin_iff {tradingDate : ℤ} (hdate : w.broker.currentDate = some tradingDate) {symbol : String}
    {quantity q : ℤ} {openPrice : Decimal} {order : OrderRequest}
    (hopen : B.loader.getOpenPrice symbol tradingDate = some openPrice) (hpos : 0 < openPrice)
    (hfits : FitsAt B w quantity openPrice q)
    (hmake : OrderRequest.make? symbol .buy .market q none "backtest_entry" = some order) :
    OutcomeWithin B w openPrice q (SimulatedBroker.placeOrder B.loader B.brokerConfig order w.broker) ↔
      q * fillAt B openPrice ≤ pctBudget B w ∧ q * fillAt B openPrice ≤ B.settings.maxPositionSizeKrw ∧
        costAt B openPrice q ≤ w.broker.cash := by
  obtain ⟨hsymbol, hside, htype, hquantity, -⟩ := make?_eq_some hmake
  have hplace := placeOrder_market_buy hdate hside htype (hsymbol ▸ hopen)
  rw [hquantity] at hplace
  unfold wp at hplace
  cases hrun : SimulatedBroker.placeOrder B.loader B.brokerConfig order w.broker with
  | ok r b' =>
    rw [hrun] at hplace
    unfold OutcomeWithin
    dsimp only
    rw [fillPriceOf_le_iff hplace.1 hfits.pos hpos hfits.pct, fillPriceOf_le_iff hplace.1 hfits.pos hpos hfits.krw,
      and_iff_left hplace.2]
  | error e b' =>
    rw [hrun] at hplace
    obtain ⟨⟨need, held, rfl⟩, hlack⟩ := hplace
    exact iff_of_false id fun h => absurd h.2.2 (not_le.2 hlack)

/-- At the turn of a signal its order stays within the limits exactly if the bounds leave room for the costs. -/
theorem withinLimits_iff {tradingDate : ℤ} {signal : Signal} (hdate : w.broker.currentDate = some tradingDate) :
    WithinLimits B tradingDate signal w ↔ RoomToFill B tradingDate signal w := by
  -- for the order that the risk check passes, the room of a bound is the room of the order itself
  have hroom : ∀ {openPrice q}, 0 < openPrice →
      IsGreatest {n | FitsAt B w signal.quantity openPrice n} q →
      (((∃ n ∈ shareBounds B w signal.quantity openPrice, n * fillAt B openPrice ≤ pctBudget B w) ∧
        (∃ n ∈ shareBounds B w signal.quantity openPrice, n * fillAt B openPrice ≤ B.settings.maxPositionSizeKrw) ∧
        ∃ n ∈ shareBounds B w signal.quantity openPrice, costAt B openPrice n ≤ w.broker.cash) ↔
      q * fillAt B openPrice ≤ pctBudget B w ∧ q * fillAt B openPrice ≤ B.settings.maxPositionSizeKrw ∧
        costAt B openPrice q ≤ w.broker.cash) := by
    intro openPrice q hpos hgreatest
    have hfits : FitsAt B w signal.quantity openPrice q := hgreatest.1
    have hworth : (0 : Decimal) ≤ q * openPrice := mul_nonneg (Int.cast_nonneg hfits.pos.le) hpos.le
    refine and_congr (exists_bound_iff hpos hgreatest fun n hn => ?_) (and_congr
      (exists_bound_iff hpos hgreatest fun n hn => ?_) (exists_bound_iff hpos hgreatest fun n hn => ?_))
    · exact mul_fill_le_of_le hfits.pos.le hn (hworth.trans hfits.pct)
    · exact mul_fill_le_of_le hfits.pos.le hn (hworth.trans hfits.krw)
    · exact costAt_le_of_le hfits.pos.le hn (hworth.trans hfits.cash)
  constructor
  · intro h openPrice hbuy hopen hunblocked hpos hshares
    obtain ⟨q, hq, hleast⟩ := exists_least_bound (B := B) (w := w) signal.quantity openPrice
    have hgreatest : IsGreatest {n | FitsAt B w signal.quantity openPrice n} q :=
      (isGreatest_fitsAt_iff hpos).2 ⟨hshares q hq, hq, hleast⟩
    have hrisk := riskCheck_eq_some_iff.2 ⟨hunblocked, hpos, hgreatest⟩
    obtain ⟨order, horder⟩ := exists_entryOrder signal.symbol hgreatest.1.pos
    exact (hroom hpos hgreatest).2 ((outcomeWithin_iff hdate hopen hpos hgreatest.1 horder).1
      (h openPrice q order hbuy hopen hrisk horder))
  · intro h openPrice q order hbuy hopen hrisk hmake
    obtain ⟨hunblocked, hpos, hgreatest⟩ := riskCheck_eq_some_iff.1 hrisk
    obtain ⟨hq, -, hle⟩ := (isGreatest_fitsAt_iff hpos).1 hgreatest
    refine (outcomeWithin_iff hdate hopen hpos hgreatest.1 hmake).2 ((hroom hpos hgreatest).1 ?_)
    exact h openPrice hbuy hopen hunblocked hpos fun n hn => hq.trans_le (hle n hn)

/-- At its turn the date of the broker is the day of the signal. -/
theorem TurnOf.date {w₀ : Backtest} {tradingDate : ℤ} {signal : Signal} (h : TurnOf B config w₀ tradingDate signal w) :
    w.broker.currentDate = some tradingDate := by
  obtain ⟨earlier, later, k, rest, -, -, hrun⟩ := h
  have hspec : wp (runToTurn B config earlier tradingDate k)
      (fun _ w' => w'.broker.currentDate = some tradingDate) (fun _ _ => True) w₀ := by
    unfold runToTurn
    rw [wp_bind]
    refine wp_mono (wp_true _ _) (fun _ w₁ _ => ?_) fun _ _ _ => trivial
    rw [wp_bind]
    refine wp_mono (wp_true _ _) (fun _ w₂ _ => ?_) fun _ _ _ => trivial
    have hstart : wp (startDay B tradingDate) (fun _ w' => w'.broker.currentDate = some tradingDate)
        (fun _ _ => True) w₂ := by
      unfold startDay SimulatedBroker.setCurrentDate
      rw [wp_bind, wp_modifyEngine, wp_onBroker, wp_modify]
    rw [wp_bind]
    refine wp_mono hstart (fun _ w₃ h₃ => ?_) fun _ _ _ => trivial
    have hdate := date_pendingOnly (some tradingDate)
    rw [wp_bind]
    refine wp_mono (keeps_checkExits B config (date_orderStable B _ _) hdate.offTrading tradingDate w₃ h₃)
      (fun _ w₄ h₄ => ?_) fun _ _ _ => trivial
    rw [wp_bind, wp_get, wp_bind, wp_modifyEngine, wp_bind]
    exact wp_mono (keeps_forM (fun s _ => keeps_executeSignal B config (date_orderStable B _ _) hdate.offTrading
      tradingDate s) _ h₄) (fun _ _ h => h) fun _ _ _ => trivial
  have hdate := wp_of_ok hspec hrun
  exact hdate

/-! ## The number of positions -/

variable (B)

/-- Not more positions than the settings allow. -/
def WithinMaximum (w : Backtest) : Prop := (w.engine.positions.items.length : ℤ) ≤ B.settings.maxPortfolioPositions

variable {B}

theorem withinMaximum_holdingsOnly : HoldingsOnly (WithinMaximum B) := by
  intro w e' b hpositions _ h
  unfold WithinMaximum at h ⊢
  rwa [hpositions]

theorem keeps_executeExit_withinMaximum (symbol : String) (tradingDate : ℤ) (exitReason : String) :
    Keeps (WithinMaximum B) (executeExit B symbol tradingDate exitReason) := by
  refine keeps_executeExit_holdings B withinMaximum_holdingsOnly (fun w e' hpositions _ h => ?_) tradingDate exitReason
  unfold WithinMaximum at h ⊢
  rw [hpositions]
  have hle := Dict.length_erase_le w.engine.positions symbol
  omega

/-- The risk check leaves room for one more position. -/
theorem keeps_executeSignal_withinMaximum (tradingDate : ℤ) (signal : Signal) :
    Keeps (WithinMaximum B) (executeSignal B config tradingDate signal) := by
  refine keeps_executeSignal_holdings B config withinMaximum_holdingsOnly
    (fun w e' b openPrice qty pos price _ hrisk hpositions _ h => ?_) tradingDate
  have hroom := (riskCheck_eq_some_iff.1 hrisk).1.positions
  have hle := Dict.length_set_le w.engine.positions signal.symbol pos
  unfold WithinMaximum
  rw [hpositions]
  omega

theorem keeps_checkExits_withinMaximum (tradingDate : ℤ) :
    Keeps (WithinMaximum B) (checkExits B config tradingDate) := by
  unfold checkExits
  refine keeps_bind keeps_get fun w => keeps_bind ?_ fun found => ?_
  · exact keeps_collectExits B config (fun w _ h => h) _ _
  · exact keeps_forM fun e _ => keeps_executeExit_withinMaximum e.1 tradingDate e.2

/-- A reset engine has no positions. -/
theorem prepare_positions (w₀ : Backtest) :
    wp (prepare B config) (fun _ w => w.engine.positions = Dict.empty)
      (fun _ w => w.engine.positions = Dict.empty) w₀ := by
  unfold prepare
  rw [wp_bind, wp_modify]
  cases config.mode with
  | technical => rfl
  | llmLive => rfl
  | llmReplay => cases B.sessionFactory <;> rfl

theorem prepare_withinMaximum (h : 0 ≤ B.settings.maxPortfolioPositions) (w₀ : Backtest) :
    wp (prepare B config) (fun _ w => WithinMaximum B w) (fun _ w => WithinMaximum B w) w₀ := by
  have hnone : ∀ w : Backtest, w.engine.positions = Dict.empty → WithinMaximum B w := by
    intro w hw
    unfold WithinMaximum
    rw [hw]
    exact h
  exact wp_mono (prepare_positions w₀) (fun _ w => hnone w) fun _ w => hnone w

/-! ## The limits over a run -/

variable (B config)

/-- The states of the run from a state: those between the steps of the loop, those at which it is the turn of a
signal, and the last one. -/
inductive Reached (w₀ : Backtest) : Backtest → Prop
  | step (k : ℕ) : Reached w₀ (left (runTo B config k w₀))
  | turn {tradingDate : ℤ} {signal : Signal} {w : Backtest} : TurnOf B config w₀ tradingDate signal w → Reached w₀ w
  | finished : Reached w₀ (left (run B config w₀))

/-- In the run from a state every BUY that passes the risk check is filled within the limits, and there are never
more positions than allowed. -/
def OrdersWithinLimits (w₀ : Backtest) : Prop :=
  (∀ tradingDate signal w, TurnOf B config w₀ tradingDate signal w → WithinLimits B tradingDate signal w) ∧
    ∀ w, Reached B config w₀ w → WithinMaximum B w

variable {B config}

/-- What the steps of a run keep: `P` holds between them, and `J` is left where one raises. -/
structure RunInvariant (B : Bench) (config : BacktestConfig) (P J : Backtest → Prop) : Prop where
  weaken : ∀ w, P w → J w
  start : ∀ tradingDate, Keeps P (startDay B tradingDate)
  exits : ∀ tradingDate, Keeps P (checkExits B config tradingDate)
  clear : ∀ w, P w → P { w with engine := { w.engine with pendingSignals := [] } }
  entry : ∀ tradingDate signal w, P w →
    wp (executeSignal B config tradingDate signal) (fun _ w' => P w') (fun _ w' => J w') w
  generate : ∀ tradingDate, Keeps P (generateSignals B config tradingDate)
  snapshot : ∀ tradingDate, Keeps P (recordSnapshot B tradingDate)
  exit : ∀ symbol tradingDate exitReason, Keeps P (executeExit B symbol tradingDate exitReason)

namespace RunInvariant

variable {P J : Backtest → Prop} {w₀ : Backtest}

theorem entries (h : RunInvariant B config P J) (tradingDate : ℤ) (signals : List Signal) {w : Backtest} (hw : P w) :
    wp (signals.forM (executeSignal B config tradingDate)) (fun _ w' => P w') (fun _ w' => J w') w :=
  wp_forM (fun signal _ w hw => h.entry tradingDate signal w hw) hw

theorem of_keeps (h : RunInvariant B config P J) {x : M PUnit} (hx : Keeps P x) {w : Backtest} (hw : P w) :
    wp x (fun _ w' => P w') (fun _ w' => J w') w :=
  wp_mono (hx w hw) (fun _ _ h => h) fun _ w' h' => h.weaken w' h'

/-- A step of a day. -/
theorem dayStep (h : RunInvariant B config P J) {tradingDate : ℤ} {x : M PUnit}
    (hx : x ∈ BacktestEngine.daySteps B config tradingDate) {w : Backtest} (hw : P w) :
    wp x (fun _ w' => P w') (fun _ w' => J w') w := by
  unfold BacktestEngine.daySteps at hx
  simp only [List.mem_cons, List.not_mem_nil, or_false] at hx
  rcases hx with rfl | rfl | rfl | rfl | rfl
  · exact h.of_keeps (h.start tradingDate) hw
  · exact h.of_keeps (h.exits tradingDate) hw
  · unfold executePendingSignals
    rw [wp_bind, wp_get, wp_bind, wp_modifyEngine]
    exact h.entries tradingDate _ (h.clear w hw)
  · exact h.of_keeps (h.generate tradingDate) hw
  · exact h.of_keeps (h.snapshot tradingDate) hw

/-- Steps of the loop. -/
theorem runAll (h : RunInvariant B config P J) {dates : List ℤ} {steps : List (M PUnit)}
    (hsteps : ∀ x ∈ steps, x ∈ loopSteps B config dates) {w : Backtest} (hw : P w) :
    wp (BacktestEngine.runAll steps) (fun _ w' => P w') (fun _ w' => J w') w := by
  refine wp_forM (fun x hx w hw => ?_) hw
  obtain ⟨d, -, hd⟩ := List.mem_flatMap.1 (hsteps x hx)
  exact h.dayStep hd hw

/-- A run up to a step of its loop. -/
theorem runTo (h : RunInvariant B config P J)
    (hprepare : wp (prepare B config) (fun _ w => P w) (fun _ w => J w) w₀) (k : ℕ) :
    wp (BacktestEngine.runTo B config k) (fun _ w => J w) (fun _ w => J w) w₀ := by
  unfold BacktestEngine.runTo
  rw [wp_bind]
  refine wp_mono hprepare (fun _ w₁ h₁ => ?_) fun _ _ h => h
  exact wp_mono (h.runAll (fun x hx => List.mem_of_mem_take hx) h₁) (fun _ w' h' => h.weaken w' h') fun _ _ h => h

/-- A run up to the turn of a signal. -/
theorem runToTurn (h : RunInvariant B config P J)
    (hprepare : wp (prepare B config) (fun _ w => P w) (fun _ w => J w) w₀) (earlier : List ℤ)
    (tradingDate : ℤ) (k : ℕ) :
    wp (BacktestEngine.runToTurn B config earlier tradingDate k) (fun _ w => J w) (fun _ w => J w) w₀ := by
  unfold BacktestEngine.runToTurn
  rw [wp_bind]
  refine wp_mono hprepare (fun _ w₁ h₁ => ?_) fun _ _ h => h
  rw [wp_bind]
  refine wp_mono (h.runAll (fun _ hx => hx) h₁) (fun _ w₂ h₂ => ?_) fun _ _ h => h
  rw [wp_bind]
  refine wp_mono (h.start tradingDate w₂ h₂) (fun _ w₃ h₃ => ?_) fun _ w' h' => h.weaken w' h'
  rw [wp_bind]
  refine wp_mono (h.exits tradingDate w₃ h₃) (fun _ w₄ h₄ => ?_) fun _ w' h' => h.weaken w' h'
  rw [wp_bind, wp_get, wp_bind, wp_modifyEngine, wp_bind]
  exact wp_mono (h.entries tradingDate _ (h.clear w₄ h₄)) (fun _ w' h' => h.weaken w' h') fun _ _ h => h

/-- A whole run. -/
theorem run (h : RunInvariant B config P J)
    (hprepare : wp (prepare B config) (fun _ w => P w) (fun _ w => J w) w₀) :
    wp (BacktestEngine.run B config) (fun _ w => J w) (fun _ w => J w) w₀ :=
  wp_mono (run_rule B config h.weaken h.exit (fun _ _ hw => h.runAll (fun _ hx => hx) hw) hprepare)
    (fun _ _ h => h.1) fun _ _ h => h.elim

/-- Every state that a run reaches. -/
theorem reached (h : RunInvariant B config P J)
    (hprepare : wp (prepare B config) (fun _ w => P w) (fun _ w => J w) w₀) {w : Backtest}
    (hw : Reached B config w₀ w) : J w := by
  cases hw with
  | step k => exact left_of_wp (h.runTo hprepare k)
  | turn hturn =>
    obtain ⟨earlier, later, k, rest, -, -, hrun⟩ := hturn
    have hJ := wp_of_ok (h.runToTurn hprepare earlier _ k) hrun
    exact hJ
  | finished => exact left_of_wp (h.run hprepare)

end RunInvariant

theorem withinMaximum_runInvariant : RunInvariant B config (WithinMaximum B) (WithinMaximum B) where
  weaken _ h := h
  start := keeps_startDay_holdings B withinMaximum_holdingsOnly
  exits := keeps_checkExits_withinMaximum
  clear _ h := h
  entry := keeps_executeSignal_withinMaximum
  generate := keeps_generateSignals_holdings B config withinMaximum_holdingsOnly
  snapshot := keeps_recordSnapshot_holdings B withinMaximum_holdingsOnly
  exit := keeps_executeExit_withinMaximum

theorem Reached.withinMaximum (h : 0 ≤ B.settings.maxPortfolioPositions) {w₀ : Backtest}
    (hw : Reached B config w₀ w) : WithinMaximum B w :=
  withinMaximum_runInvariant.reached (prepare_withinMaximum h w₀) hw

/-- A reset engine has no positions, which is already too many for a negative maximum. -/
theorem nonneg_of_withinMaximum {w₀ : Backtest} (h : ∀ w, Reached B config w₀ w → WithinMaximum B w) :
    0 ≤ B.settings.maxPortfolioPositions := by
  have hreset : wp (runTo B config 0) (fun _ w => w.engine.positions = Dict.empty)
      (fun _ w => w.engine.positions = Dict.empty) w₀ := by
    unfold runTo
    rw [wp_bind]
    exact wp_mono (prepare_positions w₀) (fun _ _ h => h) fun _ _ h => h
  have hmaximum := h _ (.step 0)
  unfold WithinMaximum at hmaximum
  rw [left_of_wp (I := fun w => w.engine.positions = Dict.empty) hreset] at hmaximum
  exact hmaximum

end BacktestEngine

end TradingAgent
