/-
The simulated broker and the in-memory broker keep the same books. On LIMIT orders, without commission
and with the date set, both accept and reject the same orders and show the same account after each.
-/
import TradingAgent.Broker.Mock
import Mathlib.Tactic.Ring

namespace TradingAgent

open Wp Alike

/-- A LIMIT order placed at a wall-clock time, with a price that is not negative. -/
structure LimitOrder where
  request : OrderRequest
  price : Decimal
  now : ℤ
  isLimit : request.orderType = .limit
  priced : request.price = some price
  price_nonneg : 0 ≤ price

/-! ## What a broker shows -/

/-- A position without its entry time. -/
def Position.undated (p : Position) : Position := { p with entryDate := 0 }

/-- What an account shows after an order: the error, if it was rejected, and then the account. -/
structure AccountView where
  error : Option Exn
  cash : Decimal
  realizedPnl : Decimal
  positions : List Position
  balance : AccountBalance

/-- Place an order and look at the account. -/
def SimulatedBroker.answer (L : HistoricalDataLoader) (cfg : BrokerConfig) (order : LimitOrder)
    (b : SimulatedBroker) : AccountView × SimulatedBroker :=
  let r := attempt (placeOrder L cfg order.request) b
  ({ error := r.1, cash := r.2.cash, realizedPnl := r.2.realizedPnl
     positions := r.2.openPositions.map (·.undated)
     balance := { r.2.getBalance with timestamp := none } }, r.2)

/-- Place an order and look at the account. -/
def InMemoryBroker.answer (order : LimitOrder) (b : InMemoryBroker) : AccountView × InMemoryBroker :=
  let r := attempt (placeOrder order.request order.now) b
  ({ error := r.1, cash := r.2.cash, realizedPnl := r.2.realizedPnl
     positions := r.2.getPositions.map (·.undated)
     balance := { r.2.getBalance order.now with timestamp := none } }, r.2)

/-- A configuration without commission. -/
def BrokerConfig.commissionFree (cash : Decimal) (slippageBps : ℤ) : BrokerConfig :=
  { initialCapital := cash, slippageBps, commissionBuyPct := 0, commissionSellPct := 0 }

/-- A fresh broker whose date has been set. -/
def SimulatedBroker.newOn (L : HistoricalDataLoader) (cfg : BrokerConfig) (d : ℤ) : SimulatedBroker :=
  (attempt (setCurrentDate L d) (new cfg)).2

namespace BrokerAgreement

/-! ## The same books -/

/-- The ledger of a broker without the entry times. -/
def undatedBooks (positions : Dict String Position) : Dict String Position :=
  positions.mapValues fun _ p => p.undated

/-- A simulated broker with its date set and an in-memory broker with the same books. -/
structure SameBooks (b : SimulatedBroker) (m : InMemoryBroker) : Prop where
  dated : b.currentDate.isSome
  cash : b.cash = m.cash
  realizedPnl : b.realizedPnl = m.realizedPnl
  positions : undatedBooks b.positions = undatedBooks m.positions

theorem undatedBooks_set (positions : Dict String Position) (symbol : String) (p : Position) :
    undatedBooks (positions.set symbol p) = (undatedBooks positions).set symbol p.undated :=
  positions.mapValues_set _ _ _

/-- The open positions of a ledger can be read off its undated copy. -/
theorem map_undated_open (positions : Dict String Position) :
    (positions.values.filter (fun p => p.quantity > 0)).map (·.undated) =
      (undatedBooks positions).values.filter (fun p => p.quantity > 0) := by
  have hvalues : (undatedBooks positions).values = positions.values.map (·.undated) := by
    simp [undatedBooks, Dict.mapValues, Dict.values, Function.comp_def]
  rw [hvalues, List.filter_map]
  rfl

/-- The open position in a symbol is the same in both ledgers, entry time apart. -/
theorem held_congr {p q : Dict String Position} (h : undatedBooks p = undatedBooks q) (symbol : String) :
    ((p.get? symbol).filter (fun x => x.quantity > 0)).map (·.undated) =
      ((q.get? symbol).filter (fun x => x.quantity > 0)).map (·.undated) := by
  have hget := congrArg (fun d => (d.get? symbol).filter (fun x => x.quantity > 0)) h
  simp only [undatedBooks, Dict.get?_mapValues, Option.filter_map] at hget
  exact hget

/-- The balance computed from the open positions. -/
def balanceOf (cash realizedPnl : Decimal) (held : List Position) : AccountBalance :=
  let invested := (held.map (fun p => p.averageCost * (p.quantity : Decimal))).sum
  let unrealized := (held.map (·.unrealizedPnl)).sum
  { totalAssets := cash + invested + unrealized, cash, invested, unrealizedPnl := unrealized
    realizedPnl, positionsCount := held.length, timestamp := none }

/-- The balance does not depend on the entry times. -/
theorem balanceOf_map_undated (cash realizedPnl : Decimal) (held : List Position) :
    balanceOf cash realizedPnl (held.map (·.undated)) = balanceOf cash realizedPnl held := by
  unfold balanceOf
  simp only [List.map_map, List.length_map]
  rfl

section

variable {b : SimulatedBroker} {m : InMemoryBroker}

theorem SameBooks.open (h : SameBooks b m) :
    b.openPositions.map (·.undated) = m.getPositions.map (·.undated) := by
  unfold SimulatedBroker.openPositions InMemoryBroker.getPositions
  rw [map_undated_open, map_undated_open, h.positions]

/-- The same books show the same balance. -/
theorem SameBooks.balance (h : SameBooks b m) (now : ℤ) :
    { b.getBalance with timestamp := none } = { m.getBalance now with timestamp := none } := by
  have hopen : balanceOf b.cash b.realizedPnl b.openPositions =
      balanceOf m.cash m.realizedPnl m.getPositions := by
    rw [← balanceOf_map_undated, h.open, balanceOf_map_undated, h.cash, h.realizedPnl]
  exact hopen

/-! ## One order -/

/-- A BUY leaves the same position: the formulas for the unrealized result agree. -/
theorem undated_boughtPosition {p q : Option Position}
    (h : (p.filter (fun x => x.quantity > 0)).map (·.undated) =
      (q.filter (fun x => x.quantity > 0)).map (·.undated)) (order : OrderRequest)
    (price : Decimal) (d now : ℤ) :
    (SimulatedBroker.boughtPosition p order price d).undated =
      (InMemoryBroker.boughtPosition q order price (price * order.quantity) now).undated := by
  unfold SimulatedBroker.boughtPosition InMemoryBroker.boughtPosition
  generalize p.filter (fun x => decide (x.quantity > 0)) = x at h ⊢
  generalize q.filter (fun x => decide (x.quantity > 0)) = y at h ⊢
  cases x with
  | none =>
    cases y with
    | none => rfl
    | some e => cases h
  | some e =>
    cases y with
    | none => cases h
    | some e' =>
      obtain ⟨⟩ := e
      obtain ⟨⟩ := e'
      simp only [Option.map_some, Position.undated, Option.some.injEq, Position.mk.injEq] at h ⊢
      obtain ⟨rfl, rfl, rfl, -⟩ := h
      simp only [and_true, true_and]
      ring

/-- A SELL leaves the same position. -/
theorem undated_soldPosition {p q : Position} (h : p.undated = q.undated) (order : OrderRequest)
    (price : Decimal) :
    (SimulatedBroker.soldPosition p order price).undated =
      (InMemoryBroker.soldPosition q order price).undated := by
  obtain ⟨⟩ := p
  obtain ⟨⟩ := q
  simp only [Position.undated, Position.mk.injEq] at h
  obtain ⟨rfl, rfl, rfl, -⟩ := h
  unfold SimulatedBroker.soldPosition InMemoryBroker.soldPosition
  dsimp only
  split <;> rfl

/-- Both brokers book an order alike, or both refuse it with the same error. -/
theorem executeOrder_same (h : SameBooks b m) (order : OrderRequest) (price : Decimal) (d now : ℤ) :
    Same SameBooks (SimulatedBroker.executeOrder order price 0 d)
      (InMemoryBroker.executeOrder order price now) b m := by
  unfold Same SimulatedBroker.executeOrder InMemoryBroker.executeOrder
  have hheld := held_congr h.positions order.symbol
  cases order.side with
  | buy =>
    simp only [SimulatedBroker.executeBuy, InMemoryBroker.executeBuy, wp_bind, wp_get, wp_ite, wp_throw,
      wp_modify, add_zero, h.cash]
    split
    · exact ⟨trivial, h⟩
    · refine ⟨h.dated, rfl, h.realizedPnl, ?_⟩
      rw [undatedBooks_set, undatedBooks_set, h.positions, undated_boughtPosition hheld]
  | sell =>
    simp only [SimulatedBroker.executeSell, InMemoryBroker.executeSell, wp_bind, wp_get]
    cases hp : (b.positions.get? order.symbol).filter (fun p => p.quantity > 0) with
    | none =>
      cases hq : (m.positions.get? order.symbol).filter (fun p => p.quantity > 0) with
      | none => exact ⟨rfl, h⟩
      | some q => rw [hp, hq] at hheld; cases hheld
    | some p =>
      cases hq : (m.positions.get? order.symbol).filter (fun p => p.quantity > 0) with
      | none => rw [hp, hq] at hheld; cases hheld
      | some q =>
        rw [hp, hq] at hheld
        have hpq : p.undated = q.undated := Option.some.inj hheld
        have hquantity : p.quantity = q.quantity := (congrArg Position.quantity hpq :)
        have hcost : p.averageCost = q.averageCost := (congrArg Position.averageCost hpq :)
        simp only [wp_ite, wp_throw, wp_modify, sub_zero, hquantity, hcost, h.cash, h.realizedPnl]
        split
        · exact ⟨trivial, h⟩
        · refine ⟨h.dated, rfl, rfl, ?_⟩
          rw [undatedBooks_set, undatedBooks_set, h.positions, undated_soldPosition hpq]

/-- Without commission rates every order is free of charge. -/
theorem calculateCommission_free (cash : Decimal) (slippageBps : ℤ) (side : OrderSide) (amount : Decimal) :
    SimulatedBroker.calculateCommission (.commissionFree cash slippageBps) side amount = 0 := by
  have hzero : quantize0 0 = 0 := by
    unfold quantize0
    exact_mod_cast Rounding.halfUp_intCast 0
  unfold SimulatedBroker.calculateCommission BrokerConfig.commissionFree
  cases side <;> simp only [zero_div, mul_zero, hzero]

/-- Both brokers accept a LIMIT order, or both reject it with the same error; the books stay the same. -/
theorem placeOrder_same (L : HistoricalDataLoader) (cash : Decimal) (slippageBps : ℤ) (h : SameBooks b m)
    (order : LimitOrder) :
    Same SameBooks (SimulatedBroker.placeOrder L (.commissionFree cash slippageBps) order.request)
      (InMemoryBroker.placeOrder order.request order.now) b m := by
  obtain ⟨d, hd⟩ := Option.isSome_iff_exists.1 h.dated
  have hprice : SimulatedBroker.getFillPrice L order.request d = pure order.price := by
    unfold SimulatedBroker.getFillPrice
    simp only [order.isLimit, order.priced]
  have hprice' : InMemoryBroker.getFillPrice order.request = pure order.price := by
    unfold InMemoryBroker.getFillPrice
    simp only [order.isLimit, order.priced]
  have hfill : SimulatedBroker.fillPrice (.commissionFree cash slippageBps) order.request order.price =
      order.price := by
    unfold SimulatedBroker.fillPrice
    simp only [order.isLimit]
  have hnumbered : SameBooks b { m with orderCounter := m.orderCounter + 1 } :=
    ⟨h.dated, h.cash, h.realizedPnl, h.positions⟩
  have hbook := executeOrder_same hnumbered order.request order.price d order.now
  unfold Same SimulatedBroker.placeOrder InMemoryBroker.placeOrder SimulatedBroker.ensureDateSet
    InMemoryBroker.nextOrderId
  simp only [hprice, hprice', wp_bind, wp_get, wp_pure, wp_modify, hd, hfill, calculateCommission_free]
  refine wp_mono hbook (fun _ b' hb => ?_) (fun _ _ he => he)
  exact wp_mono hb (fun _ m' hm => ⟨hm.dated, hm.cash, hm.realizedPnl, hm.positions⟩) (fun _ _ hf => hf)

end

/-! ## Runs -/

/-- The same books answer every LIMIT order alike. -/
theorem answers_simulate (L : HistoricalDataLoader) (cash : Decimal) (slippageBps : ℤ) :
    Simulates SameBooks (SimulatedBroker.answer L (.commissionFree cash slippageBps))
      InMemoryBroker.answer := by
  intro order b m h
  obtain ⟨herror, hnext⟩ := (placeOrder_same L cash slippageBps h order).attempt
  refine ⟨?_, hnext⟩
  unfold SimulatedBroker.answer InMemoryBroker.answer
  simp only [AccountView.mk.injEq]
  exact ⟨herror, hnext.cash, hnext.realizedPnl, hnext.open, hnext.balance order.now⟩

/-- Fresh brokers with the same cash have the same books. -/
theorem sameBooks_new (L : HistoricalDataLoader) (cash : Decimal) (slippageBps d : ℤ)
    (prices : Option (Dict String Decimal)) :
    SameBooks (.newOn L (.commissionFree cash slippageBps) d) (.new cash prices) :=
  ⟨rfl, rfl, rfl, rfl⟩

/-- The two brokers agree: on every list of LIMIT orders, each order is accepted by both or rejected by
both with the same error, and after it both show the same cash, realized result, open positions and
balance. -/
theorem brokers_agree (L : HistoricalDataLoader) (cash : Decimal) (slippageBps d : ℤ)
    (prices : Option (Dict String Decimal)) (orders : List LimitOrder) :
    trace (SimulatedBroker.answer L (.commissionFree cash slippageBps)) orders
        (.newOn L (.commissionFree cash slippageBps) d) =
      trace InMemoryBroker.answer orders (.new cash prices) :=
  (answers_simulate L cash slippageBps).trace_eq orders (sameBooks_new L cash slippageBps d prices)

end BrokerAgreement

end TradingAgent
