/-
The KIS client: order submission and the balance of the account. The answer to an order only carries an
order number, so every accepted order is reported as submitted. The balance comes in pages of texts.
-/
import TradingAgent.Core.Models
import TradingAgent.Lib.PyDecimal

namespace TradingAgent

/-! ## What the exchange answers -/

/-- The number a KIS text denotes: zero if it is blank or no number, `none` if it is an infinity or a NaN,
which no domain model accepts. -/
def toDecimal (value : String) : Option Decimal :=
  if PyDecimal.strip value.toList = [] then some 0
  else match PyDecimal.parse? (PyDecimal.strip value.toList) with
    | none => some 0
    | some (.finite q) => some q
    | some .special => none

/-- The integer a KIS text denotes, zero if it is blank or no integer. -/
def toInt (value : String) : ℤ :=
  if PyDecimal.strip value.toList = [] then 0
  else (PyInt.parse? (PyDecimal.strip value.toList)).getD 0

/-- One position of a balance page. -/
structure KISBalanceOutput1 where
  pdno : String := ""
  hldgQty : String := ""
  pchsAvgPric : String := ""
  prpr : String := ""
  evluAmt : String := ""
  evluPflsAmt : String := ""
  evluPflsRt : String := ""

/-- The summary of an account. -/
structure KISBalanceOutput2 where
  dncaTotAmt : String := ""
  totEvluAmt : String := ""
  thdtBuyAmt : String := ""
  thdtSllAmt : String := ""
  pchsAmtSmtlAmt : String := ""
  evluPflsSmtlAmt : String := ""

/-- The domain model of a position. -/
def KISBalanceOutput1.toDomain (item : KISBalanceOutput1) (now : ℤ) : Option Position := do
  let qty := toInt item.hldgQty
  let averageCost ← toDecimal item.pchsAvgPric
  let currentPrice ← toDecimal item.prpr
  let marketValue ← toDecimal item.evluAmt
  let unrealizedPnl ← toDecimal item.evluPflsAmt
  let unrealizedPnlPct ← toDecimal item.evluPflsRt
  return {
    symbol := item.pdno
    quantity := qty
    averageCost, currentPrice, marketValue, unrealizedPnl, unrealizedPnlPct
    status := if qty > 0 then .isOpen else .closed
    entryDate := now }

/-- The parameters of a balance request that change from page to page. -/
structure BalanceParams where
  trCont : String := ""
  ctxAreaFk100 : String := ""
  ctxAreaNk100 : String := ""

/-- One page of a balance answer. -/
structure BalancePage where
  output1 : List KISBalanceOutput1 := []
  output2 : List KISBalanceOutput2 := []
  trCont : String := ""
  ctxAreaFk100 : String := ""
  ctxAreaNk100 : String := ""

namespace KISClient

/-! ## Orders -/

/-- The body of an order request. -/
structure OrderBody where
  cano : String
  acntPrdtCd : String
  pdno : String
  ordDvsn : String
  ordQty : ℤ
  ordUnpr : Decimal
  sllType : Option String

/-- The account of the client, and what the exchange answers to a request: an order number. -/
structure Connection where
  cano : String
  acntPrdtCd : String
  request : String → OrderBody → String
  now : ℤ

def trId (order : OrderRequest) : String := if order.side = .buy then "TTTC0012U" else "TTTC0011U"

def orderBody (client : Connection) (order : OrderRequest) : OrderBody :=
  { cano := client.cano
    acntPrdtCd := client.acntPrdtCd
    pdno := order.symbol
    ordDvsn := if order.orderType = .limit then "00" else "01"
    ordQty := order.quantity
    ordUnpr := if order.orderType = .market then 0 else order.price.getD 0
    sllType := if order.side = .buy then none else some "01" }

/-- Submit an order. -/
def placeOrder (client : Connection) (order : OrderRequest) : OrderResult :=
  { orderId := client.request (trId order) (orderBody client order)
    symbol := order.symbol
    side := order.side
    orderType := order.orderType
    quantity := order.quantity
    price := order.price.getD 0
    status := .submitted
    timestamp := client.now }

/-! ## Account -/

def maxBalancePages : ℕ := 10

/-- Collect the positions of all pages and the first summary; at most so many pages are asked for. -/
def fetchBalancePages (request : BalanceParams → BalancePage) : ℕ → BalanceParams →
    List KISBalanceOutput1 → Option KISBalanceOutput2 → List KISBalanceOutput1 × KISBalanceOutput2
  | 0, _, allPositions, summary => (allPositions, summary.getD {})
  | pages + 1, params, allPositions, summary =>
    let data := request params
    let allPositions := allPositions ++ data.output1
    let summary := summary.or data.output2.head?
    if data.trCont = "M" ∨ data.trCont = "F" then
      fetchBalancePages request pages
        { trCont := "N", ctxAreaFk100 := data.ctxAreaFk100, ctxAreaNk100 := data.ctxAreaNk100 }
        allPositions summary
    else (allPositions, summary.getD {})

/-- The balance of the account, unless an amount is not finite. -/
def getBalance (request : BalanceParams → BalancePage) (now : ℤ) : Option AccountBalance := do
  let (positions, summary) := fetchBalancePages request maxBalancePages {} [] none
  let cash ← toDecimal summary.dncaTotAmt
  let invested ← toDecimal summary.pchsAmtSmtlAmt
  let unrealizedPnl ← toDecimal summary.evluPflsSmtlAmt
  let totalAssets ← toDecimal summary.totEvluAmt
  let sold ← toDecimal summary.thdtSllAmt
  let bought ← toDecimal summary.thdtBuyAmt
  return {
    totalAssets, cash, invested, unrealizedPnl
    dailyPnl := sold - bought
    positionsCount := (positions.filter (fun p => toInt p.hldgQty > 0)).length
    timestamp := some now }

/-- The amounts of a balance: the total is the reported one, the result of the day is what was sold less
what was bought, and its share in percent is never filled in. -/
theorem getBalance_eq_some {request : BalanceParams → BalancePage} {now : ℤ} {balance : AccountBalance}
    (h : getBalance request now = some balance) :
    ∃ sold bought,
      toDecimal (fetchBalancePages request maxBalancePages {} [] none).2.thdtSllAmt = some sold ∧
      toDecimal (fetchBalancePages request maxBalancePages {} [] none).2.thdtBuyAmt = some bought ∧
      toDecimal (fetchBalancePages request maxBalancePages {} [] none).2.totEvluAmt =
        some balance.totalAssets ∧
      balance.dailyPnl = sold - bought ∧ balance.dailyPnlPct = 0 := by
  simp only [getBalance, Option.bind_eq_bind, Option.bind_eq_some_iff, Option.pure_def,
    Option.some.injEq] at h
  obtain ⟨cash, -, invested, -, unrealized, -, total, htotal, sold, hsold, bought, hbought, rfl⟩ := h
  exact ⟨sold, bought, hsold, hbought, htotal, rfl, rfl⟩

/-- The open positions of the account. -/
def getPositions (request : BalanceParams → BalancePage) (now : ℤ) : Option (List Position) :=
  let rawPositions := (fetchBalancePages request maxBalancePages {} [] none).1
  (rawPositions.filter (fun item => toInt item.hldgQty > 0)).mapM (fun item => item.toDomain now)

end KISClient

end TradingAgent
