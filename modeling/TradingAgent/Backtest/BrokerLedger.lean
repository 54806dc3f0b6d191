/-
The ledger of the simulated broker over any sequence of its calls. The total value counts market
values, the balance counts cost and unrealized results; both are kept up in every path that writes a
position. Cash stays nonnegative because a rounded commission never exceeds the amount of its sale.
-/
import TradingAgent.Backtest.Simulator

namespace TradingAgent

open Wp

namespace SimulatedBroker

/-! ## Calls -/

/-- A call that changes the broker. -/
inductive Call
  | setCurrentDate (targetDate : ℤ)
  | placeOrder (order : OrderRequest)

variable (L : HistoricalDataLoader) (cfg : BrokerConfig)

/-- The broker after a call, also after one that raises. -/
def call (c : Call) (b : SimulatedBroker) : SimulatedBroker :=
  match c with
  | .setCurrentDate targetDate =>
    match setCurrentDate L targetDate b with
    | .ok _ b' => b'
    | .error _ b' => b'
  | .placeOrder order =>
    match placeOrder L cfg order b with
    | .ok _ b' => b'
    | .error _ b' => b'

/-- The broker after a sequence of calls. -/
def calls (cs : List Call) (b : SimulatedBroker) : SimulatedBroker := cs.foldl (fun b c => call L cfg c b) b

/-- The configurations the ledger is stated for: no negative capital, slippage within the whole
price, and commissions of at most half the amount, as the default rates are. -/
structure SoundConfig (cfg : BrokerConfig) : Prop where
  capital : 0 ≤ cfg.initialCapital
  slippage : 0 ≤ cfg.slippageBps ∧ cfg.slippageBps ≤ 10000
  sellFee : 0 ≤ cfg.commissionSellPct ∧ cfg.commissionSellPct ≤ 50

/-- No negative price: neither in the data nor in the LIMIT orders of the calls. -/
structure PricesNonneg (cs : List Call) : Prop where
  data : ∀ r ∈ L.rows, 0 ≤ r.openPrice ∧ 0 ≤ r.close
  limit : ∀ order, Call.placeOrder order ∈ cs → order.orderType = .limit →
    ∀ p, order.price = some p → 0 ≤ p

/-- What the ledger of a broker is meant to satisfy at any time. -/
structure Balanced (b : SimulatedBroker) : Prop where
  total : b.getTotalValue = b.getBalance.totalAssets
  book : b.cash + (b.positions.values.map (fun p => p.averageCost * (p.quantity : Decimal))).sum =
    cfg.initialCapital + b.realizedPnl - (b.orders.map (·.commission)).sum
  cash : 0 ≤ b.cash
  quantity : ∀ p ∈ b.positions.values, 0 ≤ p.quantity

/-- The invariant behind it: each entry has a nonnegative quantity and, while open, a market value of
its cost and its unrealized result; the book is balanced at cost. -/
structure Ledger (b : SimulatedBroker) : Prop where
  entries : ∀ symbol p, b.positions.get? symbol = some p → 0 ≤ p.quantity ∧
    (0 < p.quantity → p.marketValue = p.averageCost * p.quantity + p.unrealizedPnl)
  book : b.cash + b.positions.sum (fun _ p => p.averageCost * (p.quantity : Decimal)) =
    cfg.initialCapital + b.realizedPnl - (b.orders.map (·.commission)).sum
  cash : 0 ≤ b.cash

variable {L cfg} {b b' : SimulatedBroker}

theorem Ledger.balanced (h : Ledger cfg b) : Balanced cfg b where
  total := by
    unfold getTotalValue getBalance
    dsimp only
    rw [add_assoc, ← List.sum_map_add]
    refine congrArg (fun x => b.cash + x) (congrArg List.sum (List.map_congr_left fun p hp => ?_))
    obtain ⟨hval, hq⟩ := List.mem_filter.1 hp
    obtain ⟨symbol, hget⟩ := (Dict.mem_values_iff _ p).1 hval
    exact (h.entries symbol p hget).2 (of_decide_eq_true hq)
  book := by rw [Dict.sum_values]; exact h.book
  cash := h.cash
  quantity := fun p hp => by
    obtain ⟨symbol, hget⟩ := (Dict.mem_values_iff _ p).1 hp
    exact (h.entries symbol p hget).1

theorem ledger_new (h : 0 ≤ cfg.initialCapital) : Ledger cfg (new cfg) where
  entries := fun symbol p hp => by cases hp
  book := by
    show cfg.initialCapital + 0 = cfg.initialCapital + 0 - 0
    ring
  cash := h

/-! ## One call -/

/-- Revaluing keeps quantity and cost, and splits the new market value into cost and result. -/
theorem setCurrentDate_ledger (h : Ledger cfg b) (targetDate : ℤ) :
    wp (setCurrentDate L targetDate) (fun _ b' => Ledger cfg b') (fun _ _ => False) b := by
  unfold setCurrentDate
  rw [wp_modify]
  refine ⟨fun symbol p hp => ?_, ?_, h.cash⟩
  · rw [Dict.get?_mapValues] at hp
    obtain ⟨q, hq, rfl⟩ := Option.map_eq_some_iff.1 hp
    obtain ⟨hnonneg, hvalue⟩ := h.entries symbol q hq
    unfold revalue
    split
    · rename_i hclosed
      exact ⟨hnonneg, fun hopen => absurd hopen (not_lt.2 hclosed)⟩
    · split
      · exact ⟨hnonneg, hvalue⟩
      · refine ⟨hnonneg, fun _ => ?_⟩
        dsimp only
        ring
  · dsimp only
    rw [Dict.sum_mapValues, ← h.book]
    refine congrArg (fun x => b.cash + x) (Dict.sum_congr _ _ _ _ fun symbol => ?_)
    refine congrArg (fun f => (b.positions.get? symbol).elim 0 f) (funext fun p => ?_)
    obtain ⟨-, hq, hc⟩ := revalue_frame L targetDate symbol p
    rw [hq, hc]

/-- Writing an entry keeps the entries in order if the new one is. -/
theorem entries_set (h : Ledger cfg b) {symbol : String} {p : Position}
    (hp : 0 ≤ p.quantity ∧ (0 < p.quantity → p.marketValue = p.averageCost * p.quantity + p.unrealizedPnl))
    (hset : b'.positions = b.positions.set symbol p) :
    ∀ s q, b'.positions.get? s = some q → 0 ≤ q.quantity ∧
      (0 < q.quantity → q.marketValue = q.averageCost * q.quantity + q.unrealizedPnl) := by
  intro s q hq
  rw [hset, Dict.get?_set] at hq
  split at hq
  · cases hq; exact hp
  · exact h.entries s q hq

/-- A position bought into has the old cost and the price paid, and splits its market value. -/
theorem boughtPosition_spec (h : Ledger cfg b) (order : OrderRequest) (price : Decimal) (d : ℤ)
    {p : Position} (hp : boughtPosition (b.positions.get? order.symbol) order price d = p) :
    (0 ≤ p.quantity ∧ (0 < p.quantity → p.marketValue = p.averageCost * p.quantity + p.unrealizedPnl)) ∧
      p.averageCost * (p.quantity : Decimal) = price * order.quantity +
        (b.positions.get? order.symbol).elim 0 (fun q => q.averageCost * (q.quantity : Decimal)) := by
  have hq := order.quantity_pos
  have hnew : ∀ p : Position, p.quantity = order.quantity → p.averageCost = price →
      p.marketValue = price * order.quantity → p.unrealizedPnl = 0 → 0 ≤ p.quantity ∧
        (0 < p.quantity → p.marketValue = p.averageCost * p.quantity + p.unrealizedPnl) := by
    intro p h1 h2 h3 h4
    exact ⟨by omega, fun _ => by rw [h1, h2, h3, h4, add_zero]⟩
  unfold boughtPosition at hp
  cases hget : b.positions.get? order.symbol with
  | none =>
    rw [hget, Option.filter_none] at hp
    cases hp
    exact ⟨hnew _ rfl rfl rfl rfl, by simp⟩
  | some q =>
    obtain ⟨hnonneg, -⟩ := h.entries _ q hget
    rw [hget, Option.filter_some] at hp
    by_cases hopen : 0 < q.quantity
    · rw [if_pos (decide_eq_true hopen)] at hp
      cases hp
      have hne : ((q.quantity + order.quantity : ℤ) : ℚ) ≠ 0 := by
        have : q.quantity + order.quantity ≠ 0 := by omega
        exact_mod_cast this
      refine ⟨⟨by dsimp only; omega, fun _ => by dsimp only; ring⟩, ?_⟩
      dsimp only [Option.elim_some]
      rw [div_mul_cancel₀ _ hne]
      ring
    · have hzero : q.quantity = 0 := le_antisymm (not_lt.1 hopen) hnonneg
      rw [if_neg (by simpa using hopen)] at hp
      cases hp
      exact ⟨hnew _ rfl rfl rfl rfl, by simp [hzero]⟩

/-- A position sold from keeps its unit cost, and splits its market value. -/
theorem soldPosition_spec (order : OrderRequest) (price : Decimal) {q : Position}
    (hq : order.quantity ≤ q.quantity) {p : Position} (hp : soldPosition q order price = p) :
    (0 ≤ p.quantity ∧ (0 < p.quantity → p.marketValue = p.averageCost * p.quantity + p.unrealizedPnl)) ∧
      p.averageCost * (p.quantity : Decimal) =
        q.averageCost * (q.quantity : Decimal) - q.averageCost * order.quantity := by
  unfold soldPosition at hp
  dsimp only at hp
  split at hp
  · rename_i hzero
    cases hp
    refine ⟨⟨by dsimp only; omega, fun h => absurd h (by dsimp only; omega)⟩, ?_⟩
    dsimp only
    push_cast
    ring
  · cases hp
    refine ⟨⟨by dsimp only; omega, fun _ => by dsimp only; ring⟩, ?_⟩
    dsimp only
    push_cast
    ring

theorem fillPrice_nonneg (hc : SoundConfig cfg) (order : OrderRequest) {base : Decimal} (hb : 0 ≤ base) :
    0 ≤ fillPrice cfg order base := by
  obtain ⟨hlo, hhi⟩ := hc.slippage
  have hlo' : (0 : ℚ) ≤ cfg.slippageBps := by exact_mod_cast hlo
  have hhi' : (cfg.slippageBps : ℚ) ≤ 10000 := by exact_mod_cast hhi
  have hround : ∀ x : ℚ, 0 ≤ x → 0 ≤ quantize0 x := by
    intro x hx
    unfold quantize0
    exact_mod_cast Rounding.halfUp_nonneg hx
  unfold fillPrice
  split
  · unfold calculateSlippage
    dsimp only
    split
    · exact hround _ (mul_nonneg hb (by linarith))
    · exact hround _ (mul_nonneg hb (by linarith))
  · exact hb

/-- The rounded commission on a sale is at most the amount of the sale. -/
theorem sellCommission_le (hc : SoundConfig cfg) {amount : Decimal} (ha : 0 ≤ amount) :
    calculateCommission cfg .sell amount ≤ amount := by
  obtain ⟨hlo, hhi⟩ := hc.sellFee
  unfold calculateCommission quantize0
  exact Rounding.halfUp_mul_le ha (by linarith) (by linarith)

/-- A filled order at a nonnegative base price keeps the ledger. -/
theorem filled_ledger (hc : SoundConfig cfg) (h : Ledger cfg b) {order : OrderRequest} {r : OrderResult} {d : ℤ}
    {base : Decimal} (hbase : 0 ≤ base) (hf : Filled L cfg order b r b' d base) : Ledger cfg b' := by
  have hprice := fillPrice_nonneg hc order hbase
  have hamount : 0 ≤ fillPrice cfg order base * order.quantity :=
    mul_nonneg hprice (by exact_mod_cast order.quantity_pos.le)
  have horders : (b'.orders.map (·.commission)).sum = (b.orders.map (·.commission)).sum + r.commission := by
    rw [hf.orders, List.map_append, List.sum_append]; simp
  have hbook := h.book
  have hbooked := hf.booked
  have hreal := hf.realized
  have hfee := hf.commission
  unfold Booked at hbooked
  unfold Realized at hreal
  cases hside : order.side with
  | buy =>
    rw [hside] at hbooked hreal hfee
    obtain ⟨hcash, hset⟩ := hbooked
    obtain ⟨hentry, hcost⟩ := boughtPosition_spec h order (fillPrice cfg order base) d rfl
    have hsum := Dict.sum_set b.positions (fun _ p => p.averageCost * (p.quantity : Decimal)) order.symbol
      (boughtPosition (b.positions.get? order.symbol) order (fillPrice cfg order base) d)
    refine ⟨entries_set h hentry hset, ?_, hf.funded hside⟩
    rw [hset, hcash, hreal, horders]
    linarith
  | sell =>
    rw [hside] at hbooked hreal hfee
    obtain ⟨p, hp, hq, hcash, hset⟩ := hbooked
    obtain ⟨hget, -⟩ := openPosition_eq_some.1 hp
    obtain ⟨hentry, hcost⟩ := soldPosition_spec order (fillPrice cfg order base) hq rfl
    have hsum := Dict.sum_set b.positions (fun _ p => p.averageCost * (p.quantity : Decimal)) order.symbol
      (soldPosition p order (fillPrice cfg order base))
    rw [hget, Option.elim_some] at hsum
    refine ⟨entries_set h hentry hset, ?_, ?_⟩
    · rw [hset, hcash, hreal p hp, horders]
      linarith
    · have hle := sellCommission_le hc hamount
      have hcash0 := h.cash
      rw [hcash, hfee]
      linarith

/-! ## A sequence of calls -/

/-- The base price of a filled order comes from the data or from the order. -/
theorem basePrice_nonneg {cs : List Call} (hp : PricesNonneg L cs) {order : OrderRequest}
    (hmem : Call.placeOrder order ∈ cs) {r : OrderResult} {d : ℤ} {base : Decimal}
    (hf : Filled L cfg order b r b' d base) : 0 ≤ base := by
  have hbase := hf.basePrice
  cases htype : order.orderType with
  | market =>
    rw [htype] at hbase
    obtain ⟨row, hrow, rfl⟩ := Option.map_eq_some_iff.1 hbase
    exact (hp.data row (List.mem_of_find?_eq_some hrow)).1
  | limit =>
    rw [htype] at hbase
    exact hp.limit order hmem htype base hbase

theorem call_ledger (hc : SoundConfig cfg) {cs : List Call} (hp : PricesNonneg L cs) {c : Call}
    (hmem : c ∈ cs) (h : Ledger cfg b) : Ledger cfg (call L cfg c b) := by
  unfold call
  cases c with
  | setCurrentDate targetDate => exact setCurrentDate_ledger h targetDate
  | placeOrder order =>
    have hspec := placeOrder_spec L cfg order b
    unfold wp at hspec
    dsimp only
    cases hr : placeOrder L cfg order b with
    | ok r b' =>
      rw [hr] at hspec
      obtain ⟨d, base, hf⟩ := hspec
      exact filled_ledger hc h (basePrice_nonneg hp hmem hf) hf
    | error exn b' =>
      rw [hr] at hspec
      dsimp only at hspec ⊢
      rw [hspec]; exact h

variable (L cfg) in
/-- After any sequence of calls of a sound broker at nonnegative prices, total value and balance agree,
the book is balanced at cost, cash and quantities are not negative, and an order that is then rejected
changes nothing. -/
theorem balanced_of_calls (hc : SoundConfig cfg) (cs : List Call) (hp : PricesNonneg L cs) :
    Balanced cfg (calls L cfg cs (new cfg)) ∧
      ∀ order exn b', placeOrder L cfg order (calls L cfg cs (new cfg)) = .error exn b' →
        b' = calls L cfg cs (new cfg) := by
  have hrun : ∀ cs' : List Call, (∀ c ∈ cs', c ∈ cs) → ∀ b, Ledger cfg b → Ledger cfg (calls L cfg cs' b) := by
    intro cs'
    induction cs' with
    | nil => exact fun _ b h => h
    | cons c cs' ih =>
      intro hsub b h
      exact ih (fun c' hc' => hsub c' (List.mem_cons_of_mem _ hc')) _
        (call_ledger hc hp (hsub c (List.mem_cons_self ..)) h)
  refine ⟨(hrun cs (fun _ h => h) _ (ledger_new hc.capital)).balanced, fun order exn b' hr => ?_⟩
  have hsame := wp_of_error (placeOrder_spec L cfg order _) hr
  exact hsame

/-- Two days of one symbol. -/
def callDays : HistoricalDataLoader where
  rows := [
    { symbol := "A", date := 1, openPrice := 1000, high := 1000, low := 1000, close := 1000, volume := 10 },
    { symbol := "A", date := 2, openPrice := 1100, high := 1100, low := 1100, close := 1100, volume := 10 }]
  sorted := by decide
  unique := by decide

/-- A market or limit order of the default account for `A`. -/
def orderOf (side : OrderSide) (quantity : ℤ) (price : Option Decimal) (h : 0 < quantity) : OrderRequest :=
  { symbol := "A", side, orderType := if price.isSome then .limit else .market, quantity, price
    quantity_pos := h }

/-- Two purchases on different days, a part sold, a sale that is too large, the rest sold. -/
def tradeCalls : List Call :=
  [.placeOrder (orderOf .buy 5 none (by decide)), .setCurrentDate 1,
   .placeOrder (orderOf .buy 10 none (by decide)), .setCurrentDate 2,
   .placeOrder (orderOf .buy 10 none (by decide)), .placeOrder (orderOf .sell 4 (some 1200) (by decide)),
   .placeOrder (orderOf .sell 40 none (by decide)), .placeOrder (orderOf .sell 16 none (by decide))]

/-- The four orders that fill leave a balanced ledger. -/
theorem balanced_of_tradeCalls :
    ((calls callDays { initialCapital := 100000 } tradeCalls (new { initialCapital := 100000 })).orders.map
      (·.quantity)) = [10, 10, 4, 16] ∧
    Balanced { initialCapital := 100000 }
      (calls callDays { initialCapital := 100000 } tradeCalls (new { initialCapital := 100000 })) := by
  refine ⟨by decide +kernel, (balanced_of_calls callDays { initialCapital := 100000 } ?_ tradeCalls ?_).1⟩
  · exact ⟨by norm_num, by decide, by norm_num, by norm_num⟩
  · refine ⟨by decide +kernel, fun order hmem htype p hp => ?_⟩
    simp only [tradeCalls, List.mem_cons, Call.placeOrder.injEq, List.not_mem_nil, or_false, false_or,
      reduceCtorEq] at hmem
    rcases hmem with rfl | rfl | rfl | rfl | rfl | rfl
    all_goals first
      | cases hp; norm_num
      | cases hp

end SimulatedBroker

end TradingAgent
