/-
What the daily loss rule watches. A day of an account is a sequence of fills and price moves. Its total
value changes by what the price moves do to the shares held; the result of the day that the broker client
fills in is what was sold less what was bought. The rule reads the second, its limit is about the first.
-/
import TradingAgent.Broker.KisClient
import TradingAgent.Strategy.PortfolioState
import TradingAgent.Strategy.RiskManager
import Mathlib.Tactic.Linarith
import Mathlib.Tactic.NormNum

namespace TradingAgent

/-! ## The day of an account -/

/-- An account during the day: cash, the prices of the market, the shares held, and the amounts bought and sold
so far. -/
structure TradingDay where
  cash : Decimal
  prices : String → Decimal
  holdings : Dict String ℤ := Dict.empty
  bought : Decimal := 0
  sold : Decimal := 0

/-- What happens to an account during the day. A fill trades at the price of the moment: a trade at another price
is a move to that price and then the fill. -/
inductive DayEvent
  | fill (side : OrderSide) (symbol : String) (quantity : ℕ)
  | move (symbol : String) (price : Decimal)

namespace TradingDay

/-- The account before the first event of the day. -/
def opening (cash : Decimal) (prices : String → Decimal) (holdings : Dict String ℤ) : TradingDay :=
  { cash, prices, holdings }

def held (day : TradingDay) (symbol : String) : ℤ := (day.holdings.get? symbol).elim 0 id

/-- Cash and the holdings at their prices. -/
def totalValue (day : TradingDay) : Decimal :=
  day.cash + day.holdings.sum (fun symbol quantity => quantity * day.prices symbol)

/-- The amount bought so far less the amount sold. -/
def netBought (day : TradingDay) : Decimal := day.bought - day.sold

def apply (day : TradingDay) : DayEvent → TradingDay
  | .fill .buy symbol quantity =>
    { day with
      cash := day.cash - quantity * day.prices symbol
      holdings := day.holdings.set symbol (day.held symbol + quantity)
      bought := day.bought + quantity * day.prices symbol }
  | .fill .sell symbol quantity =>
    { day with
      cash := day.cash + quantity * day.prices symbol
      holdings := day.holdings.set symbol (day.held symbol - quantity)
      sold := day.sold + quantity * day.prices symbol }
  | .move symbol price => { day with prices := Function.update day.prices symbol price }

def run (day : TradingDay) (events : List DayEvent) : TradingDay := events.foldl apply day

/-- What an event does to the value of the shares held. -/
def priceGain (day : TradingDay) : DayEvent → Decimal
  | .fill _ _ _ => 0
  | .move symbol price => day.held symbol * (price - day.prices symbol)

/-- What the price moves of a sequence of events do to the shares held at the time. -/
def priceGains (day : TradingDay) : List DayEvent → Decimal
  | [] => 0
  | e :: es => day.priceGain e + (day.apply e).priceGains es

/-! ## Fills keep the value, prices change it -/

theorem sum_set_held (day : TradingDay) (symbol : String) (quantity : ℤ) :
    (day.holdings.set symbol quantity).sum (fun k n => (n : Decimal) * day.prices k) =
      day.holdings.sum (fun k n => (n : Decimal) * day.prices k) +
        (quantity - day.held symbol) * day.prices symbol := by
  have hsum := day.holdings.sum_set (fun k n => (n : Decimal) * day.prices k) symbol quantity
  have hheld : (day.holdings.get? symbol).elim 0 (fun n => (n : Decimal) * day.prices symbol) =
      day.held symbol * day.prices symbol := by
    unfold held
    cases day.holdings.get? symbol with
    | none => simp
    | some n => rfl
  rw [hheld] at hsum
  linarith [sub_mul (quantity : ℚ) (day.held symbol) (day.prices symbol)]

/-- A new price of a symbol counts for the shares held of it. -/
theorem sum_update_price (day : TradingDay) (symbol : String) (price : Decimal) :
    day.holdings.sum (fun k n => (n : Decimal) * Function.update day.prices symbol price k) =
      day.holdings.sum (fun k n => (n : Decimal) * day.prices k) +
        day.held symbol * (price - day.prices symbol) := by
  have hkeys : ∀ k ∈ day.holdings.keys, k ∈ insert symbol day.holdings.keys.toFinset := fun k hk =>
    Finset.mem_insert_of_mem (List.mem_toFinset.2 hk)
  have hsymbol : symbol ∈ insert symbol day.holdings.keys.toFinset := Finset.mem_insert_self _ _
  have hothers : ∀ k ∈ (insert symbol day.holdings.keys.toFinset).erase symbol,
      (day.holdings.get? k).elim 0 (fun n => (n : Decimal) * Function.update day.prices symbol price k) =
        (day.holdings.get? k).elim 0 (fun n => (n : Decimal) * day.prices k) := by
    intro k hk
    rw [Function.update_of_ne (Finset.ne_of_mem_erase hk)]
  rw [Dict.sum_eq_sum_keys _ _ hkeys, Dict.sum_eq_sum_keys _ _ hkeys, ← Finset.add_sum_erase _ _ hsymbol,
    ← Finset.add_sum_erase _ _ hsymbol, Finset.sum_congr rfl hothers, Function.update_self]
  unfold held
  cases day.holdings.get? symbol with
  | none => simp
  | some n =>
    simp only [Option.elim_some, id_eq]
    ring

/-- One event changes the total value by what its price does to the shares held. -/
theorem totalValue_apply (day : TradingDay) (e : DayEvent) :
    (day.apply e).totalValue = day.totalValue + day.priceGain e := by
  unfold totalValue priceGain
  rcases e with ⟨_ | _, symbol, quantity⟩ | ⟨symbol, price⟩
  · simp only [apply, sum_set_held]
    push_cast
    ring
  · simp only [apply, sum_set_held]
    push_cast
    ring
  · simp only [apply, sum_update_price]
    ring

/-- The day changes the total value by what its prices do to the shares held at the time. -/
theorem totalValue_run (events : List DayEvent) : ∀ day : TradingDay,
    (day.run events).totalValue = day.totalValue + day.priceGains events := by
  induction events with
  | nil => exact fun day => (add_zero _).symm
  | cons e es ih =>
    intro day
    rw [run, List.foldl_cons, ← run, ih, totalValue_apply, priceGains, add_assoc]

/-- An event changes the net amount bought or the value, never both. -/
theorem netBought_or_totalValue_apply (day : TradingDay) (e : DayEvent) :
    (day.apply e).netBought = day.netBought ∨ (day.apply e).totalValue = day.totalValue := by
  cases e with
  | fill side symbol quantity => exact .inr (by rw [totalValue_apply, priceGain, add_zero])
  | move symbol price => exact .inl rfl

/-- Without a purchase nothing has been bought. -/
theorem bought_run (events : List DayEvent) (h : ∀ symbol quantity, .fill .buy symbol quantity ∉ events) :
    ∀ day : TradingDay, (day.run events).bought = day.bought := by
  induction events with
  | nil => exact fun day => rfl
  | cons e es ih =>
    intro day
    rw [run, List.foldl_cons, ← run, ih fun symbol quantity hmem => h symbol quantity (List.mem_cons_of_mem e hmem)]
    rcases e with ⟨_ | _, symbol, quantity⟩ | ⟨symbol, price⟩
    · exact absurd List.mem_cons_self (h symbol quantity)
    · rfl
    · rfl

end TradingDay

/-! ## What the rule watches -/

namespace DailyLoss

open PortfolioStateService AlgoRiskManager KISClient TradingDay

/-- The rule blocks buying in a state. -/
def Blocks (cfg : Settings) (state : PortfolioState) : Prop :=
  (checkDailyLossLimit cfg state).violation = some "DAILY_LOSS_LIMIT"

/-- The total value fell by more than the amount or by more than the percentage of the settings. -/
def FellBelow (cfg : Settings) (start now : TradingDay) : Prop :=
  start.totalValue - now.totalValue > cfg.dailyLossLimitKrw ∨
    start.totalValue - now.totalValue > cfg.dailyLossLimitPct / 100 * start.totalValue

/-- The summary of an account shows its day: the amounts bought and sold and the total value. -/
structure Shows (summary : KISBalanceOutput2) (day : TradingDay) : Prop where
  bought : toDecimal summary.thdtBuyAmt = some day.bought
  sold : toDecimal summary.thdtSllAmt = some day.sold
  total : toDecimal summary.totEvluAmt = some day.totalValue

theorem blocks_iff (cfg : Settings) (state : PortfolioState) :
    Blocks cfg state ↔
      state.dailyPnlPct < -cfg.dailyLossLimitPct ∨ state.dailyPnl < -(cfg.dailyLossLimitKrw : Decimal) := by
  unfold Blocks checkDailyLossLimit
  by_cases hpct : state.dailyPnlPct < -cfg.dailyLossLimitPct
  · simp [hpct]
  · by_cases hkrw : state.dailyPnl < -(cfg.dailyLossLimitKrw : Decimal)
    · simp [hpct, hkrw]
    · simp [hpct, hkrw]

/-- Through the balance of the client and the portfolio state, the rule sees the net amount bought. -/
theorem blocks_iff_netBought (cfg : Settings) (master : StockMaster) {day : TradingDay} (acct : Account)
    {request : BalanceParams → BalancePage} {now : ℤ}
    (hshows : Shows (fetchBalancePages request maxBalancePages {} [] none).2 day)
    (hbalance : getBalance request now = some acct.balance) :
    Blocks cfg (getCurrentState master acct) ↔
      cfg.dailyLossLimitPct < 0 ∨ day.netBought > cfg.dailyLossLimitKrw := by
  obtain ⟨sold, bought, hsold, hbought, -, hpnl, hpct⟩ := getBalance_eq_some hbalance
  rw [hshows.sold, Option.some.injEq] at hsold
  rw [hshows.bought, Option.some.injEq] at hbought
  rw [blocks_iff, show (getCurrentState master acct).dailyPnlPct = acct.balance.dailyPnlPct from rfl,
    show (getCurrentState master acct).dailyPnl = acct.balance.dailyPnl from rfl, hpnl, hpct, netBought, hsold, hbought]
  constructor
  · rintro (h | h)
    · exact .inl (by linarith)
    · exact .inr (by linarith)
  · rintro (h | h)
    · exact .inl (by linarith)
    · exact .inr (by linarith)

/-- The net amount bought is over the limit in won, or the percentage limit is negative. -/
def OverBought (cfg : Settings) (now : TradingDay) : Prop :=
  cfg.dailyLossLimitPct < 0 ∨ now.netBought > cfg.dailyLossLimitKrw

/-- The price moves took more than a limit from the shares held. -/
def PricesTook (cfg : Settings) (start : TradingDay) (events : List DayEvent) : Prop :=
  -start.priceGains events > cfg.dailyLossLimitKrw ∨
    -start.priceGains events > cfg.dailyLossLimitPct / 100 * start.totalValue

/-- The fall of the total value is what the price moves took from the shares held. -/
theorem fellBelow_iff_pricesTook (cfg : Settings) (start : TradingDay) (events : List DayEvent) :
    FellBelow cfg start (start.run events) ↔ PricesTook cfg start events := by
  unfold FellBelow PricesTook
  rw [totalValue_run, sub_add_cancel_left]

/-- From one moment of the day to the next the net amount bought or the loss stays what it was. -/
theorem overBought_or_pricesTook_succ (cfg : Settings) (start : TradingDay) {events : List DayEvent} {n : ℕ}
    (hn : n < events.length) :
    (OverBought cfg (start.run (events.take (n + 1))) ↔ OverBought cfg (start.run (events.take n))) ∨
      (PricesTook cfg start (events.take (n + 1)) ↔ PricesTook cfg start (events.take n)) := by
  have hrun : start.run (events.take (n + 1)) = (start.run (events.take n)).apply events[n] := by
    rw [List.take_succ_eq_append_getElem hn, run, List.foldl_append, List.foldl_cons, List.foldl_nil, ← run]
  rcases netBought_or_totalValue_apply (start.run (events.take n)) events[n] with h | h
  · left
    unfold OverBought
    rw [hrun, h]
  · right
    rw [← fellBelow_iff_pricesTook, ← fellBelow_iff_pricesTook, hrun]
    unfold FellBelow
    rw [h]

/-- Two conditions of which only one changes at a time agree throughout only if neither ever changes. -/
theorem agree_iff_constant {N : ℕ} {A B : ℕ → Prop} (h : ∀ n < N, (A (n + 1) ↔ A n) ∨ (B (n + 1) ↔ B n)) :
    (∀ n ≤ N, (A n ↔ B n)) ↔ (∀ n ≤ N, ¬ A n ∧ ¬ B n) ∨ ∀ n ≤ N, A n ∧ B n := by
  constructor
  · intro hagree
    have hconstant : ∀ n ≤ N, (A n ↔ A 0) := by
      intro n
      induction n with
      | zero => exact fun _ => Iff.rfl
      | succ n ih =>
        intro hn
        rw [← ih (by omega)]
        rcases h n hn with hA | hB
        · exact hA
        · rw [hagree (n + 1) hn, hagree n (by omega), hB]
    by_cases h0 : A 0
    · right
      intro n hn
      have hA := (hconstant n hn).2 h0
      exact ⟨hA, (hagree n hn).1 hA⟩
    · left
      intro n hn
      have hA : ¬ A n := fun hA => h0 ((hconstant n hn).1 hA)
      exact ⟨hA, fun hB => hA ((hagree n hn).2 hB)⟩
  · rintro (hneither | hboth) n hn
    · exact iff_of_false (hneither n hn).1 (hneither n hn).2
    · exact iff_of_true (hboth n hn).1 (hboth n hn).2

/-- At every moment of a day the rule blocks exactly if the total value fell below a limit: this holds of the days
on which at no moment the net amount bought was over the limit in won or the price moves had cost more than a limit
(and, where a limit is negative, of those on which both were so at every moment), and of no others. -/
theorem blocks_iff_fellBelow_iff (cfg : Settings) (master : StockMaster) (cash : Decimal)
    (prices : String → Decimal) (holdings : Dict String ℤ) (events : List DayEvent) (accounts : ℕ → Account)
    {request : ℕ → BalanceParams → BalancePage} {now : ℕ → ℤ}
    (hshows : ∀ n ≤ events.length, Shows (fetchBalancePages (request n) maxBalancePages {} [] none).2
      ((opening cash prices holdings).run (events.take n)))
    (hbalance : ∀ n ≤ events.length, getBalance (request n) (now n) = some (accounts n).balance) :
    (∀ n ≤ events.length, (Blocks cfg (getCurrentState master (accounts n)) ↔
        FellBelow cfg (opening cash prices holdings) ((opening cash prices holdings).run (events.take n)))) ↔
      (∀ n ≤ events.length, ¬ OverBought cfg ((opening cash prices holdings).run (events.take n)) ∧
        ¬ PricesTook cfg (opening cash prices holdings) (events.take n)) ∨
      ∀ n ≤ events.length, OverBought cfg ((opening cash prices holdings).run (events.take n)) ∧
        PricesTook cfg (opening cash prices holdings) (events.take n) := by
  have hmoment : ∀ n ≤ events.length, ((Blocks cfg (getCurrentState master (accounts n)) ↔
        FellBelow cfg (opening cash prices holdings) ((opening cash prices holdings).run (events.take n))) ↔
      (OverBought cfg ((opening cash prices holdings).run (events.take n)) ↔
        PricesTook cfg (opening cash prices holdings) (events.take n))) := by
    intro n hn
    rw [blocks_iff_netBought cfg master (accounts n) (hshows n hn) (hbalance n hn), fellBelow_iff_pricesTook]
    rfl
  rw [forall₂_congr hmoment]
  exact agree_iff_constant fun n hn => overBought_or_pricesTook_succ cfg _ hn

/-- A balance of one page without positions. -/
def balanceOf (summary : KISBalanceOutput2) : BalanceParams → BalancePage := fun _ => { output2 := [summary] }

/-- Every share at 60,000 won. -/
def sixtyThousand : String → Decimal := fun _ => 60000

/-- Five shares are bought for 300,000 won in all, and their price falls to 58,000 won. -/
def quietDay : List DayEvent := [.fill .buy "005930" 5, .move "005930" 58000]

/-- The summary of the account at the moments of the quiet day. -/
def quietSummary : ℕ → KISBalanceOutput2
  | 0 => { dncaTotAmt := "10000000", totEvluAmt := "10000000", thdtBuyAmt := "0", thdtSllAmt := "0",
           pchsAmtSmtlAmt := "0", evluPflsSmtlAmt := "0" }
  | 1 => { dncaTotAmt := "9700000", totEvluAmt := "10000000", thdtBuyAmt := "300000", thdtSllAmt := "0",
           pchsAmtSmtlAmt := "300000", evluPflsSmtlAmt := "0" }
  | _ => { dncaTotAmt := "9700000", totEvluAmt := "9990000", thdtBuyAmt := "300000", thdtSllAmt := "0",
           pchsAmtSmtlAmt := "300000", evluPflsSmtlAmt := "-10000" }

def quietBalance : ℕ → AccountBalance
  | 0 => { totalAssets := 10000000, cash := 10000000, invested := 0, dailyPnl := 0, timestamp := some 0 }
  | 1 => { totalAssets := 10000000, cash := 9700000, invested := 300000, dailyPnl := -300000, timestamp := some 0 }
  | _ => { totalAssets := 9990000, cash := 9700000, invested := 300000, unrealizedPnl := -10000, dailyPnl := -300000,
           timestamp := some 0 }

theorem quietDay_shows : ∀ n ≤ quietDay.length,
    Shows (fetchBalancePages (balanceOf (quietSummary n)) maxBalancePages {} [] none).2
      ((opening 10000000 sixtyThousand Dict.empty).run (quietDay.take n))
  | 0, _ => ⟨by decide +kernel, by decide +kernel, by decide +kernel⟩
  | 1, _ => ⟨by decide +kernel, by decide +kernel, by decide +kernel⟩
  | 2, _ => ⟨by decide +kernel, by decide +kernel, by decide +kernel⟩
  | n + 3, h => absurd h (by unfold quietDay; simp)

theorem quietDay_balance : ∀ n ≤ quietDay.length,
    getBalance (balanceOf (quietSummary n)) 0 = some (quietBalance n)
  | 0, _ => by decide +kernel
  | 1, _ => by decide +kernel
  | 2, _ => by decide +kernel
  | n + 3, h => absurd h (by unfold quietDay; simp)

/-- Neither the purchase nor the fall of the price reaches a limit. -/
theorem quietDay_withinLimits : ∀ n ≤ quietDay.length,
    ¬ OverBought {} ((opening 10000000 sixtyThousand Dict.empty).run (quietDay.take n)) ∧
      ¬ PricesTook {} (opening 10000000 sixtyThousand Dict.empty) (quietDay.take n)
  | 0, _ => by unfold OverBought PricesTook; decide +kernel
  | 1, _ => by unfold OverBought PricesTook; decide +kernel
  | 2, _ => by unfold OverBought PricesTook; decide +kernel
  | n + 3, h => absurd h (by unfold quietDay; simp)

/-- On the quiet day the rule is right after the first event and after the last. -/
theorem quietDay_blocks_iff_fellBelow :
    (Blocks {} (getCurrentState ⟨fun _ => none⟩ { balance := quietBalance 1 }) ↔
      FellBelow {} (opening 10000000 sixtyThousand Dict.empty)
        ((opening 10000000 sixtyThousand Dict.empty).run (quietDay.take 1))) ∧
    (Blocks {} (getCurrentState ⟨fun _ => none⟩ { balance := quietBalance 2 }) ↔
      FellBelow {} (opening 10000000 sixtyThousand Dict.empty)
        ((opening 10000000 sixtyThousand Dict.empty).run (quietDay.take 2))) := by
  have hright := (blocks_iff_fellBelow_iff {} ⟨fun _ => none⟩ 10000000 sixtyThousand Dict.empty quietDay
    (fun n => { balance := quietBalance n }) quietDay_shows quietDay_balance).2 (.inl quietDay_withinLimits)
  exact ⟨hright 1 (by decide), hright 2 (by decide)⟩

/-- Ten shares bought for 600,000 won in all, out of ten million. -/
def tenShares : List DayEvent := [.fill .buy "005930" 10]

def tenSharesSummary : KISBalanceOutput2 :=
  { dncaTotAmt := "9400000", totEvluAmt := "10000000", thdtBuyAmt := "600000", thdtSllAmt := "0",
    pchsAmtSmtlAmt := "600000", evluPflsSmtlAmt := "0" }

def tenSharesBalance : AccountBalance :=
  { totalAssets := 10000000, cash := 9400000, invested := 600000, dailyPnl := -600000, timestamp := some 0 }

/-- The purchase alone blocks further buying, although no price has moved and the total value is unchanged. -/
theorem purchase_blocks_without_loss :
    Shows (fetchBalancePages (balanceOf tenSharesSummary) maxBalancePages {} [] none).2
        ((opening 10000000 sixtyThousand Dict.empty).run tenShares) ∧
      getBalance (balanceOf tenSharesSummary) 0 = some tenSharesBalance ∧
      Blocks {} (getCurrentState ⟨fun _ => none⟩ { balance := tenSharesBalance }) ∧
      ¬ FellBelow {} (opening 10000000 sixtyThousand Dict.empty)
        ((opening 10000000 sixtyThousand Dict.empty).run tenShares) := by
  refine ⟨⟨by decide +kernel, by decide +kernel, by decide +kernel⟩, by decide +kernel,
    by unfold Blocks; decide +kernel, ?_⟩
  rw [fellBelow_iff_pricesTook]
  unfold PricesTook
  decide +kernel

/-- A day without purchases never blocks, whatever the prices do. -/
theorem not_blocks_of_no_purchase (cfg : Settings) (master : StockMaster) (cash : Decimal)
    (prices : String → Decimal) (holdings : Dict String ℤ) (events : List DayEvent) (acct : Account)
    {request : BalanceParams → BalancePage} {now : ℤ} (hpct : 0 ≤ cfg.dailyLossLimitPct)
      (hkrw : 0 ≤ cfg.dailyLossLimitKrw)
    (hbuys : ∀ symbol quantity, .fill .buy symbol quantity ∉ events)
    (hsold : 0 ≤ ((opening cash prices holdings).run events).sold)
    (hshows : Shows (fetchBalancePages request maxBalancePages {} [] none).2
      ((opening cash prices holdings).run events))
    (hbalance : getBalance request now = some acct.balance) :
    ¬ Blocks cfg (getCurrentState master acct) := by
  rw [blocks_iff_netBought cfg master acct hshows hbalance, not_or, not_lt, gt_iff_lt, not_lt, netBought,
    bought_run events hbuys]
  exact ⟨hpct, (sub_nonpos.2 hsold).trans (Int.cast_nonneg hkrw)⟩

end DailyLoss

end TradingAgent
