/-
The simulated broker. Orders fill at once at the open of the current date (MARKET, with slippage) or
at their price (LIMIT), commissions are charged in whole won, and a rejected order changes nothing.
-/
import TradingAgent.Strategy.Exit
import TradingAgent.Backtest.DataLoader
import TradingAgent.Lib.Wp

namespace TradingAgent

open Wp

/-- What a simulated broker is built with. -/
structure BrokerConfig where
  initialCapital : Decimal
  slippageBps : ℤ := 10
  commissionBuyPct : Decimal := 15 / 1000
  commissionSellPct : Decimal := 195 / 1000

/-- The state of a simulated broker. -/
structure SimulatedBroker where
  cash : Decimal
  currentDate : Option ℤ := none
  positions : Dict String Position := Dict.empty
  orders : List OrderResult := []
  orderCounter : ℕ := 0
  realizedPnl : Decimal := 0

namespace SimulatedBroker

abbrev M := EStateM Exn SimulatedBroker

/-- A fresh broker. -/
def new (cfg : BrokerConfig) : SimulatedBroker := { cash := cfg.initialCapital }

variable (L : HistoricalDataLoader) (cfg : BrokerConfig)

/-! ## Prices and costs -/

/-- The price after slippage, against the order, in whole won. -/
def calculateSlippage (side : OrderSide) (basePrice : Decimal) : Decimal :=
  let slippageRate : Decimal := cfg.slippageBps / 10000
  match side with
  | .buy => quantize0 (basePrice * (1 + slippageRate))
  | .sell => quantize0 (basePrice * (1 - slippageRate))

/-- The commission on an amount, in whole won. -/
def calculateCommission (side : OrderSide) (amount : Decimal) : Decimal :=
  match side with
  | .buy => quantize0 (amount * (cfg.commissionBuyPct / 100))
  | .sell => quantize0 (amount * (cfg.commissionSellPct / 100))

/-- Cash and the market value of the open positions. -/
def getTotalValue (b : SimulatedBroker) : Decimal :=
  b.cash + ((b.positions.values.filter (fun p => p.quantity > 0)).map (·.marketValue)).sum

/-- Cash, holdings at cost and unrealized results of the open positions. -/
def getBalance (b : SimulatedBroker) : AccountBalance :=
  let held := b.positions.values.filter (fun p => p.quantity > 0)
  let invested := (held.map (fun p => p.averageCost * (p.quantity : Decimal))).sum
  let unrealized := (held.map (·.unrealizedPnl)).sum
  { totalAssets := b.cash + invested + unrealized, cash := b.cash, invested, unrealizedPnl := unrealized
    realizedPnl := b.realizedPnl, positionsCount := held.length, timestamp := b.currentDate }

/-! ## The date -/

/-- Revalue an open position at the close of the date, if there is one. -/
def revalue (targetDate : ℤ) (symbol : String) (pos : Position) : Position :=
  if pos.quantity ≤ 0 then pos
  else match L.getClosePrice symbol targetDate with
    | none => pos
    | some close =>
      { pos with
        currentPrice := close
        marketValue := close * pos.quantity
        unrealizedPnl := (close - pos.averageCost) * pos.quantity
        unrealizedPnlPct :=
          if pos.averageCost ≠ 0 then (close - pos.averageCost) / pos.averageCost * 100 else 0 }

/-- Set the date of the simulation and revalue the positions. -/
def setCurrentDate (targetDate : ℤ) : M PUnit :=
  modify (fun b => { b with
    currentDate := some targetDate, positions := b.positions.mapValues (revalue L targetDate) })

/-! ## Orders -/

def ensureDateSet : M ℤ := do
  match (← get).currentDate with
  | none => throw (.orderError "Current date not set. Call set_current_date() first.")
  | some d => pure d

/-- The price of the order before slippage. -/
def getFillPrice (order : OrderRequest) (currentDate : ℤ) : M Decimal :=
  match order.orderType with
  | .market =>
    match L.getOpenPrice order.symbol currentDate with
    | none => throw (.noPriceData order.symbol currentDate)
    | some openPrice => pure openPrice
  | .limit =>
    match order.price with
    | none => throw (.orderError "LIMIT order requires a price")
    | some price => pure price

/-- The position after a BUY: weighted average on an open one, a new one otherwise. -/
def boughtPosition (held : Option Position) (order : OrderRequest) (fillPrice : Decimal)
    (currentDate : ℤ) : Position :=
  match held.filter (fun p => p.quantity > 0) with
  | some existing =>
    let newTotal := existing.averageCost * existing.quantity + fillPrice * order.quantity
    let newQty := existing.quantity + order.quantity
    let newAvg := newTotal / newQty
    { existing with
      quantity := newQty, averageCost := newAvg, currentPrice := fillPrice
      marketValue := fillPrice * newQty
      unrealizedPnl := (fillPrice - newAvg) * newQty
      unrealizedPnlPct := if newAvg ≠ 0 then (fillPrice - newAvg) / newAvg * 100 else 0
      status := .isOpen }
  | none =>
    { symbol := order.symbol, quantity := order.quantity, averageCost := fillPrice
      currentPrice := fillPrice, marketValue := fillPrice * order.quantity
      status := .isOpen, entryDate := currentDate }

def executeBuy (order : OrderRequest) (fillPrice commission : Decimal) (currentDate : ℤ) : M PUnit := do
  let totalCost := fillPrice * order.quantity + commission
  let b ← get
  if totalCost > b.cash then throw (.insufficientFunds totalCost b.cash)
  else modify (fun b => { b with
    cash := b.cash - totalCost
    positions := b.positions.set order.symbol
      (boughtPosition (b.positions.get? order.symbol) order fillPrice currentDate) })

/-- The position after a SELL. -/
def soldPosition (existing : Position) (order : OrderRequest) (fillPrice : Decimal) : Position :=
  let newQty := existing.quantity - order.quantity
  if newQty = 0 then
    { existing with
      quantity := newQty, currentPrice := fillPrice, marketValue := 0, unrealizedPnl := 0
      unrealizedPnlPct := 0, status := .closed }
  else
    { existing with
      quantity := newQty, currentPrice := fillPrice, marketValue := fillPrice * newQty
      unrealizedPnl := (fillPrice - existing.averageCost) * newQty
      unrealizedPnlPct := if existing.averageCost ≠ 0 then
        (fillPrice - existing.averageCost) / existing.averageCost * 100 else 0
      status := .partiallyClosed }

def executeSell (order : OrderRequest) (fillPrice commission : Decimal) : M PUnit := do
  let b ← get
  match (b.positions.get? order.symbol).filter (fun p => p.quantity > 0) with
  | none => throw (.orderError ("No position to sell for symbol: " ++ order.symbol))
  | some existing =>
    if order.quantity > existing.quantity then
      throw (.insufficientQuantity existing.quantity order.quantity)
    else modify (fun b => { b with
      realizedPnl := b.realizedPnl + (fillPrice - existing.averageCost) * order.quantity
      cash := b.cash + (fillPrice * order.quantity - commission)
      positions := b.positions.set order.symbol (soldPosition existing order fillPrice) })

/-- `SIM-` and the counter with at least six digits. -/
def orderIdText (n : ℕ) : String :=
  let digits := toString n
  "SIM-" ++ String.ofList (List.replicate (6 - digits.length) '0') ++ digits

/-- The price an order fills at: with slippage for a MARKET order. -/
def fillPrice (order : OrderRequest) (basePrice : Decimal) : Decimal :=
  match order.orderType with
  | .market => calculateSlippage cfg order.side basePrice
  | .limit => basePrice

/-- Book a filled order on its side. -/
def executeOrder (order : OrderRequest) (fillPrice commission : Decimal) (currentDate : ℤ) : M PUnit :=
  match order.side with
  | .buy => executeBuy order fillPrice commission currentDate
  | .sell => executeSell order fillPrice commission

/-- Fill an order. -/
def placeOrder (order : OrderRequest) : M OrderResult := do
  let currentDate ← ensureDateSet
  let basePrice ← getFillPrice L order currentDate
  let fillPrice := fillPrice cfg order basePrice
  let commission := calculateCommission cfg order.side (fillPrice * order.quantity)
  executeOrder order fillPrice commission currentDate
  modify (fun b => { b with orderCounter := b.orderCounter + 1 })
  let result : OrderResult :=
    { orderId := orderIdText (← get).orderCounter, symbol := order.symbol, side := order.side
      orderType := order.orderType, quantity := order.quantity, price := fillPrice
      status := .filled, filledQuantity := order.quantity, filledPrice := some fillPrice
      commission, timestamp := currentDate }
  modify (fun b => { b with orders := b.orders ++ [result] })
  pure result

/-! ## Specifications -/

/-- The broker's open position in a symbol. -/
def openPosition (b : SimulatedBroker) (symbol : String) : Option Position :=
  (b.positions.get? symbol).filter (fun p => p.quantity > 0)

/-- The broker's open positions. -/
def openPositions (b : SimulatedBroker) : List Position :=
  b.positions.values.filter (fun p => p.quantity > 0)

/-- The total value as a sum over the entries of the dictionary. -/
theorem getTotalValue_eq_sum (b : SimulatedBroker) :
    b.getTotalValue = b.cash + b.positions.sum (fun _ p => if p.quantity > 0 then p.marketValue else 0) := by
  unfold getTotalValue
  rw [Dict.sum_filter_values b.positions (fun p => p.quantity > 0)]

theorem openPosition_eq_some {b : SimulatedBroker} {symbol : String} {p : Position} :
    b.openPosition symbol = some p ↔ b.positions.get? symbol = some p ∧ 0 < p.quantity := by
  unfold openPosition
  rw [Option.filter_eq_some_iff, decide_eq_true_eq]

/-- The broker's open positions after writing one. -/
theorem openPosition_of_set {b b' : SimulatedBroker} {symbol : String} {p : Position}
    (h : b'.positions = b.positions.set symbol p) (symbol' : String) :
    b'.openPosition symbol' =
      if symbol' = symbol then (if p.quantity > 0 then some p else none) else b.openPosition symbol' := by
  unfold openPosition
  rw [h, Dict.get?_set]
  split
  · simp only [Option.filter_some, decide_eq_true_eq]
  · rfl

/-- Revaluing changes neither the symbol nor the quantity nor the cost of a position. -/
theorem revalue_frame (d : ℤ) (symbol : String) (p : Position) :
    (revalue L d symbol p).symbol = p.symbol ∧ (revalue L d symbol p).quantity = p.quantity ∧
      (revalue L d symbol p).averageCost = p.averageCost := by
  unfold revalue
  split
  · exact ⟨rfl, rfl, rfl⟩
  · split <;> exact ⟨rfl, rfl, rfl⟩

/-- The open positions after a revaluation are the revalued ones. -/
theorem openPosition_revalued {b b' : SimulatedBroker} {d : ℤ}
    (h : b'.positions = b.positions.mapValues (revalue L d)) (symbol : String) :
    b'.openPosition symbol = (b.openPosition symbol).map (revalue L d symbol) := by
  unfold openPosition
  rw [h, Dict.get?_mapValues]
  cases b.positions.get? symbol with
  | none => rfl
  | some p =>
    simp only [Option.map_some, Option.filter_some, (revalue_frame L d symbol p).2.1]
    split <;> rfl

/-- The broker's books after an order filled at a price and a fee. -/
def Booked (order : OrderRequest) (b b' : SimulatedBroker) (d : ℤ) (price fee : Decimal) : Prop :=
  match order.side with
  | .buy => b'.cash = b.cash - (price * order.quantity + fee) ∧
      b'.positions = b.positions.set order.symbol
        (boughtPosition (b.positions.get? order.symbol) order price d)
  | .sell => ∃ p, b.openPosition order.symbol = some p ∧ order.quantity ≤ p.quantity ∧
      b'.cash = b.cash + (price * order.quantity - fee) ∧
      b'.positions = b.positions.set order.symbol (soldPosition p order price)

/-- The realized result after an order filled at a price. -/
def Realized (order : OrderRequest) (b b' : SimulatedBroker) (price : Decimal) : Prop :=
  match order.side with
  | .buy => b'.realizedPnl = b.realizedPnl
  | .sell => ∀ p, b.openPosition order.symbol = some p →
      b'.realizedPnl = b.realizedPnl + (price - p.averageCost) * order.quantity

/-- What a filled order reports and does. -/
structure Filled (order : OrderRequest) (b : SimulatedBroker) (r : OrderResult) (b' : SimulatedBroker)
    (d : ℤ) (base : Decimal) : Prop where
  date : b.currentDate = some d
  basePrice : match order.orderType with
    | .market => L.getOpenPrice order.symbol d = some base
    | .limit => order.price = some base
  filledPrice : r.filledPrice = some (fillPrice cfg order base)
  commission : r.commission =
    calculateCommission cfg order.side (fillPrice cfg order base * order.quantity)
  sameDate : b'.currentDate = b.currentDate
  orders : b'.orders = b.orders ++ [r]
  reported : r.symbol = order.symbol ∧ r.side = order.side ∧ r.quantity = order.quantity ∧ r.timestamp = d
  booked : Booked order b b' d (fillPrice cfg order base) r.commission
  realized : Realized order b b' (fillPrice cfg order base)
  funded : order.side = .buy → 0 ≤ b'.cash

theorem getFillPrice_spec (order : OrderRequest) (d : ℤ) (b : SimulatedBroker) :
    wp (getFillPrice L order d)
      (fun base b' => b' = b ∧ match order.orderType with
        | .market => L.getOpenPrice order.symbol d = some base
        | .limit => order.price = some base)
      (fun _ b' => b' = b) b := by
  unfold getFillPrice
  cases order.orderType with
  | market =>
    cases h : L.getOpenPrice order.symbol d with
    | none => rfl
    | some p => exact ⟨rfl, rfl⟩
  | limit =>
    cases h : order.price with
    | none => rfl
    | some p => exact ⟨rfl, rfl⟩

/-- The booking of an order: done at once, or refused without a trace. -/
theorem executeOrder_spec (order : OrderRequest) (price fee : Decimal) (d : ℤ) (b : SimulatedBroker) :
    wp (executeOrder order price fee d)
      (fun _ b' => b'.currentDate = b.currentDate ∧ b'.orders = b.orders ∧ Booked order b b' d price fee ∧
        Realized order b b' price ∧ (order.side = .buy → 0 ≤ b'.cash))
      (fun _ b' => b' = b) b := by
  unfold executeOrder Booked Realized
  cases order.side with
  | buy =>
    simp only [executeBuy, wp_bind, wp_get, wp_ite, wp_throw, wp_modify]
    split
    · trivial
    · rename_i hcost
      simpa using hcost
  | sell =>
    simp only [executeSell, wp_bind, wp_get]
    cases hp : (b.positions.get? order.symbol).filter (fun p => p.quantity > 0) with
    | none => rfl
    | some p =>
      simp only [wp_ite, wp_throw, wp_modify]
      split
      · trivial
      · rename_i hq
        refine ⟨trivial, trivial, ⟨p, hp, not_lt.1 hq, trivial, rfl⟩, fun p' hp' => ?_, nofun⟩
        cases hp.symm.trans hp'
        rfl

/-- A rejected order leaves the broker as it was; a filled one is booked at its fill price. -/
theorem placeOrder_spec (order : OrderRequest) (b : SimulatedBroker) :
    wp (placeOrder L cfg order) (fun r b' => ∃ d base, Filled L cfg order b r b' d base)
      (fun _ b' => b' = b) b := by
  unfold placeOrder ensureDateSet
  simp only [wp_bind, wp_get]
  cases hd : b.currentDate with
  | none => rfl
  | some d =>
    simp only [wp_pure]
    refine wp_mono (getFillPrice_spec L order d b) ?_ (fun _ _ h => h)
    rintro base _ ⟨rfl, hb⟩
    refine wp_mono (executeOrder_spec order (fillPrice cfg order base) _ d _) ?_ (fun _ _ h => h)
    rintro _ b' ⟨hdate, horders, hbook, hreal, hfunded⟩
    simp only [wp_modify, horders]
    exact ⟨d, base, hd, hb, rfl, rfl, hdate, rfl, ⟨rfl, rfl, rfl, rfl⟩, hbook, hreal, hfunded⟩

end SimulatedBroker

end TradingAgent
