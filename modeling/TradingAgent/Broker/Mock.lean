/-
The in-memory broker for tests. Orders fill at once at the stored price of the symbol (MARKET) or at
their own price (LIMIT), without slippage or commission. A number is drawn for an order before it is
executed, so a rejected order uses one up; nothing else of the broker changes then.
-/
import TradingAgent.Backtest.Simulator
import TradingAgent.Lib.Alike

namespace TradingAgent

/-- The state of an in-memory broker; of a price snapshot only the current price is read. -/
structure InMemoryBroker where
  cash : Decimal
  prices : Dict String Decimal
  positions : Dict String Position := Dict.empty
  orders : Dict String OrderResult := Dict.empty
  orderCounter : ℕ := 0
  realizedPnl : Decimal := 0

namespace InMemoryBroker

abbrev M := EStateM Exn InMemoryBroker

/-- The current prices of the three default stocks. -/
def defaultPrices : Dict String Decimal :=
  ((Dict.empty.set "005930" 72000).set "000660" 185000).set "035420" 210000

/-- A fresh broker; what is not given is the default. -/
def new (initialCash : Decimal := 100000000) (prices : Option (Dict String Decimal) := none)
    (positions : Option (Dict String Position) := none) : InMemoryBroker :=
  { cash := initialCash, prices := prices.getD defaultPrices, positions := positions.getD Dict.empty }

/-! ## Account -/

/-- Cash, holdings at cost and unrealized results of the open positions. -/
def getBalance (b : InMemoryBroker) (now : ℤ) : AccountBalance :=
  let held := b.positions.values.filter (fun p => p.quantity > 0)
  let invested := (held.map (fun p => p.averageCost * (p.quantity : Decimal))).sum
  let unrealized := (held.map (·.unrealizedPnl)).sum
  { totalAssets := b.cash + invested + unrealized, cash := b.cash, invested, unrealizedPnl := unrealized
    realizedPnl := b.realizedPnl, positionsCount := held.length, timestamp := some now }

/-- The open positions. -/
def getPositions (b : InMemoryBroker) : List Position :=
  b.positions.values.filter (fun p => p.quantity > 0)

/-! ## Orders -/

/-- `MOCK-` and the counter with at least six digits. -/
def orderIdText (n : ℕ) : String :=
  let digits := toString n
  "MOCK-" ++ String.ofList (List.replicate (6 - digits.length) '0') ++ digits

def nextOrderId : M String := do
  modify (fun b => { b with orderCounter := b.orderCounter + 1 })
  pure (orderIdText (← get).orderCounter)

/-- The price an order fills at. -/
def getFillPrice (order : OrderRequest) : M Decimal := do
  match order.orderType with
  | .market =>
    match (← get).prices.get? order.symbol with
    | none => throw (.orderError ("No price data for symbol: " ++ order.symbol))
    | some price => pure price
  | .limit =>
    match order.price with
    | none => throw (.orderError "LIMIT order requires a price")
    | some price => pure price

/-- The position after a BUY: weighted average on an open one, a new one otherwise. -/
def boughtPosition (held : Option Position) (order : OrderRequest) (fillPrice totalCost : Decimal)
    (now : ℤ) : Position :=
  match held.filter (fun p => p.quantity > 0) with
  | some existing =>
    let newTotal := existing.averageCost * existing.quantity + totalCost
    let newQty := existing.quantity + order.quantity
    let newAvg := newTotal / newQty
    let marketValue := fillPrice * newQty
    { existing with
      quantity := newQty, averageCost := newAvg, currentPrice := fillPrice, marketValue
      unrealizedPnl := marketValue - newAvg * newQty
      unrealizedPnlPct := if newAvg ≠ 0 then (fillPrice - newAvg) / newAvg * 100 else 0
      status := .isOpen }
  | none =>
    { symbol := order.symbol, quantity := order.quantity, averageCost := fillPrice
      currentPrice := fillPrice, marketValue := fillPrice * order.quantity
      status := .isOpen, entryDate := now }

def executeBuy (order : OrderRequest) (fillPrice totalCost : Decimal) (now : ℤ) : M PUnit := do
  let b ← get
  if totalCost > b.cash then throw (.insufficientFunds totalCost b.cash)
  else modify (fun b => { b with
    cash := b.cash - totalCost
    positions := b.positions.set order.symbol
      (boughtPosition (b.positions.get? order.symbol) order fillPrice totalCost now) })

/-- The position after a SELL. -/
def soldPosition (existing : Position) (order : OrderRequest) (fillPrice : Decimal) : Position :=
  let newQty := existing.quantity - order.quantity
  if newQty = 0 then
    { existing with
      quantity := newQty, currentPrice := fillPrice, marketValue := 0, unrealizedPnl := 0
      unrealizedPnlPct := 0, status := .closed }
  else
    { existing with
      quantity := newQty, currentPrice := fillPrice, marketValue := fillPrice * newQty
      unrealizedPnl := (fillPrice - existing.averageCost) * newQty
      unrealizedPnlPct := if existing.averageCost ≠ 0 then
        (fillPrice - existing.averageCost) / existing.averageCost * 100 else 0
      status := .partiallyClosed }

def executeSell (order : OrderRequest) (fillPrice : Decimal) : M PUnit := do
  let b ← get
  match (b.positions.get? order.symbol).filter (fun p => p.quantity > 0) with
  | none => throw (.orderError ("No position to sell for symbol: " ++ order.symbol))
  | some existing =>
    if order.quantity > existing.quantity then
      throw (.insufficientQuantity existing.quantity order.quantity)
    else modify (fun b => { b with
      realizedPnl := b.realizedPnl + (fillPrice - existing.averageCost) * order.quantity
      cash := b.cash + fillPrice * order.quantity
      positions := b.positions.set order.symbol (soldPosition existing order fillPrice) })

/-- Book an order on its side. -/
def executeOrder (order : OrderRequest) (fillPrice : Decimal) (now : ℤ) : M PUnit :=
  match order.side with
  | .buy => executeBuy order fillPrice (fillPrice * order.quantity) now
  | .sell => executeSell order fillPrice

/-- Fill an order at the wall-clock time `now`. -/
def placeOrder (order : OrderRequest) (now : ℤ) : M OrderResult := do
  let fillPrice ← getFillPrice order
  let orderId ← nextOrderId
  executeOrder order fillPrice now
  let result : OrderResult :=
    { orderId, symbol := order.symbol, side := order.side, orderType := order.orderType
      quantity := order.quantity, price := fillPrice, status := .filled
      filledQuantity := order.quantity, filledPrice := some fillPrice, timestamp := now }
  modify (fun b => { b with orders := b.orders.set orderId result })
  pure result

end InMemoryBroker

end TradingAgent
