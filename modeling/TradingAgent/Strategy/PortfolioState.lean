/-
The portfolio state service: the state of an account, put together from the broker's balance and
holdings and from what the database knows of it. Buying changes the holdings, the cash and the count of
the day; what the limits look at changes by the bought amount.
-/
import TradingAgent.Core.Models
import Mathlib.Data.List.Dedup
import Mathlib.Algebra.Order.Ring.Rat
import Mathlib.Algebra.BigOperators.Group.List.Basic

namespace TradingAgent

/-- The stock master: the sector on file for a symbol, if there is one. -/
structure StockMaster where
  sector : String → Option String

/-- The sector a symbol counts to; a missing or empty entry is filed under "기타". -/
def StockMaster.sectorOf (master : StockMaster) (symbol : String) : String :=
  match master.sector symbol with
  | some sector => if sector = "" then "기타" else sector
  | none => "기타"

/-- What broker and database hold of an account: balance and holdings, the largest total value of the
stored snapshots and the number of positions entered today. -/
structure Account where
  accountId : String := "default"
  balance : AccountBalance
  positions : List Position := []
  historicalPeak : Decimal := 0
  entriesToday : ℕ := 0

namespace PortfolioStateService

/-- The share of each sector in the total value, in percent. -/
def getSectorAllocations (master : StockMaster) (positions : List Position) (totalValue : Decimal) :
    Dict String Decimal :=
  if positions = [] ∨ totalValue ≤ 0 then Dict.empty
  else
    let sectorValues := positions.foldl (fun d pos => d.tally (master.sectorOf pos.symbol) pos.marketValue)
      Dict.empty
    sectorValues.mapValues (fun _ value => value / totalValue * 100)

/-- The state of an account at a time. -/
def getCurrentState (master : StockMaster) (acct : Account) (now : ℤ := 0) : PortfolioState :=
  let peak := max acct.historicalPeak acct.balance.totalAssets
  { accountId := acct.accountId
    totalValue := acct.balance.totalAssets
    cash := acct.balance.cash
    dailyPnl := acct.balance.dailyPnl
    dailyPnlPct := acct.balance.dailyPnlPct
    drawdownPct := if peak > 0 then (peak - acct.balance.totalAssets) / peak * 100 else 0
    positions := acct.positions
    sectorAllocations := getSectorAllocations master acct.positions acct.balance.totalAssets
    dailyTradeCount := acct.entriesToday
    invested := acct.balance.invested
    unrealizedPnl := acct.balance.unrealizedPnl
    peakValue := peak
    timestamp := now }

end PortfolioStateService

namespace Account

/-! ## Buying -/

/-- Add bought shares to the holdings: to the holding of the symbol, or as a new one. -/
def addShares (symbol : String) (quantity : ℤ) (price : Decimal) : List Position → List Position
  | [] => [{ symbol, quantity, averageCost := price, currentPrice := price, marketValue := quantity * price }]
  | p :: ps =>
    if p.symbol = symbol then
      { p with
        quantity := p.quantity + quantity
        averageCost := (p.averageCost * p.quantity + quantity * price) / (p.quantity + quantity)
        marketValue := p.marketValue + quantity * price } :: ps
    else p :: addShares symbol quantity price ps

/-- The account after a purchase at a price: cash turns into shares, and the day has one entry more. -/
def buy (acct : Account) (symbol : String) (quantity : ℤ) (price : Decimal) : Account where
  accountId := acct.accountId
  balance := { acct.balance with
    cash := acct.balance.cash - quantity * price
    invested := acct.balance.invested + quantity * price }
  positions := addShares symbol quantity price acct.positions
  historicalPeak := acct.historicalPeak
  entriesToday := acct.entriesToday + 1

/-- The value held in the symbols that `p` picks. -/
def valueIn (acct : Account) (p : String → Bool) : Decimal :=
  ((acct.positions.filter (fun h => p h.symbol)).map (fun h => h.marketValue)).sum

/-- Whether the account holds a symbol. -/
def Holds (acct : Account) (symbol : String) : Prop := ∃ h ∈ acct.positions, h.symbol = symbol

theorem map_symbol_addShares (symbol : String) (quantity : ℤ) (price : Decimal) : ∀ ps : List Position,
    (addShares symbol quantity price ps).map (·.symbol) =
      if symbol ∈ ps.map (·.symbol) then ps.map (·.symbol) else ps.map (·.symbol) ++ [symbol]
  | [] => by simp [addShares]
  | p :: ps => by
    unfold addShares
    split
    · rename_i hp
      simp [hp]
    · rename_i hp
      rw [List.map_cons, map_symbol_addShares symbol quantity price ps, List.map_cons]
      by_cases hm : symbol ∈ ps.map (·.symbol)
      · rw [if_pos hm, if_pos (List.mem_cons_of_mem _ hm)]
      · have hm' : symbol ∉ p.symbol :: ps.map (·.symbol) := by
          rw [List.mem_cons, not_or]
          exact ⟨Ne.symm hp, hm⟩
        rw [if_neg hm, if_neg hm', List.cons_append]

theorem sum_addShares (symbol : String) (quantity : ℤ) (price : Decimal) (p : String → Bool) :
    ∀ ps : List Position,
    (((addShares symbol quantity price ps).filter (fun h => p h.symbol)).map (fun h => h.marketValue)).sum =
      ((ps.filter (fun h => p h.symbol)).map (fun h => h.marketValue)).sum +
        if p symbol then quantity * price else 0
  | [] => by
    unfold addShares
    cases hs : p symbol with
    | true => simp [hs]
    | false => simp [hs]
  | h :: ps => by
    unfold addShares
    split
    · rename_i hsym
      subst hsym
      cases hs : p h.symbol with
      | true => simp [hs]; ring
      | false => simp [hs]
    · have ih := sum_addShares symbol quantity price p ps
      cases hs : p h.symbol with
      | true => simp [hs, ih]; ring
      | false => simp [hs, ih]

@[simp] theorem valueIn_buy (acct : Account) (symbol : String) (quantity : ℤ) (price : Decimal)
    (p : String → Bool) :
    (acct.buy symbol quantity price).valueIn p = acct.valueIn p + if p symbol then quantity * price else 0 :=
  sum_addShares symbol quantity price p acct.positions

theorem holds_iff (acct : Account) (symbol : String) :
    acct.Holds symbol ↔ symbol ∈ acct.positions.map (·.symbol) := List.mem_map.symm

@[simp] theorem holds_buy (acct : Account) (symbol s : String) (quantity : ℤ) (price : Decimal) :
    (acct.buy symbol quantity price).Holds s ↔ s = symbol ∨ acct.Holds s := by
  rw [holds_iff, holds_iff]
  have hsym := map_symbol_addShares symbol quantity price acct.positions
  rw [show (acct.buy symbol quantity price).positions = addShares symbol quantity price acct.positions from rfl,
    hsym]
  split
  · rename_i hmem
    constructor
    · exact .inr
    · rintro (rfl | h)
      · exact hmem
      · exact h
  · rw [List.mem_append, List.mem_singleton, or_comm]

/-! ## Comparing accounts -/

/-- An account weighs at most as much as another one of the same totals if it holds only symbols that the
other one holds, has no more entries today and no more value in any choice of symbols. -/
instance : Preorder Account where
  le a b := (a.balance.totalAssets = b.balance.totalAssets ∧ a.balance.dailyPnl = b.balance.dailyPnl ∧
      a.balance.dailyPnlPct = b.balance.dailyPnlPct ∧ a.historicalPeak = b.historicalPeak) ∧
    (∀ s, a.Holds s → b.Holds s) ∧ a.entriesToday ≤ b.entriesToday ∧ ∀ p, a.valueIn p ≤ b.valueIn p
  le_refl _ := ⟨⟨rfl, rfl, rfl, rfl⟩, fun _ h => h, le_rfl, fun _ => le_rfl⟩
  le_trans _ _ _ h₁ h₂ :=
    ⟨⟨h₁.1.1.trans h₂.1.1, h₁.1.2.1.trans h₂.1.2.1, h₁.1.2.2.1.trans h₂.1.2.2.1, h₁.1.2.2.2.trans h₂.1.2.2.2⟩,
      fun s h => h₂.2.1 s (h₁.2.1 s h), h₁.2.2.1.trans h₂.2.2.1, fun p => (h₁.2.2.2 p).trans (h₂.2.2.2 p)⟩

/-- A purchase for a positive amount raises the load. -/
theorem le_buy (acct : Account) {symbol : String} {quantity : ℤ} {price : Decimal} (hq : 0 < quantity)
    (hp : 0 < price) : acct ≤ acct.buy symbol quantity price := by
  have hvalue : 0 ≤ (quantity : Decimal) * price := (mul_pos (Int.cast_pos.2 hq) hp).le
  refine ⟨⟨rfl, rfl, rfl, rfl⟩, fun s h => ?_, Nat.le_succ _, fun p => ?_⟩
  · rw [holds_buy]
    exact .inr h
  · rw [valueIn_buy]
    split
    · exact le_add_of_nonneg_right hvalue
    · exact (add_zero _).ge

theorem buy_mono {a b : Account} (h : a ≤ b) (symbol : String) (quantity : ℤ) (price : Decimal) :
    a.buy symbol quantity price ≤ b.buy symbol quantity price := by
  obtain ⟨htotals, hholds, hentries, hvalue⟩ := h
  refine ⟨htotals, fun s hs => ?_, Nat.succ_le_succ hentries, fun p => ?_⟩
  · rw [holds_buy] at hs ⊢
    exact hs.imp_right (hholds s)
  · rw [valueIn_buy, valueIn_buy]
    exact add_le_add_left (hvalue p) _

theorem buy_comm (acct : Account) (s₁ s₂ : String) (q₁ q₂ : ℤ) (p₁ p₂ : Decimal) :
    (acct.buy s₁ q₁ p₁).buy s₂ q₂ p₂ ≤ (acct.buy s₂ q₂ p₂).buy s₁ q₁ p₁ := by
  refine ⟨⟨rfl, rfl, rfl, rfl⟩, fun s hs => ?_, le_rfl, fun p => ?_⟩
  · rw [holds_buy, holds_buy] at hs ⊢
    tauto
  · rw [valueIn_buy, valueIn_buy, valueIn_buy, valueIn_buy, add_right_comm]

end Account

namespace PortfolioStateService

open Account

/-! ## The shares of the sectors -/

/-- A sector is listed if something of it is held, with its share of a positive total. -/
theorem getSectorAllocations_eq_some_iff (master : StockMaster) (acct : Account) (sector : String)
    (share : Decimal) :
    (getCurrentState master acct).sectorAllocations.get? sector = some share ↔
      0 < acct.balance.totalAssets ∧ (∃ s, acct.Holds s ∧ master.sectorOf s = sector) ∧
      share = acct.valueIn (fun s => master.sectorOf s = sector) / acct.balance.totalAssets * 100 := by
  show (getSectorAllocations master acct.positions acct.balance.totalAssets).get? sector = _ ↔ _
  have hheld : (∃ s, acct.Holds s ∧ master.sectorOf s = sector) ↔
      ∃ p ∈ acct.positions, master.sectorOf p.symbol = sector := by
    constructor
    · rintro ⟨s, ⟨p, hp, rfl⟩, hs⟩
      exact ⟨p, hp, hs⟩
    · rintro ⟨p, hp, hs⟩
      exact ⟨p.symbol, ⟨p, hp, rfl⟩, hs⟩
  unfold getSectorAllocations
  split
  · rename_i hempty
    rw [Dict.get?_empty]
    refine iff_of_false (fun h => by cases h) ?_
    rintro ⟨hpos, hs, -⟩
    obtain ⟨p, hp, -⟩ := hheld.1 hs
    rcases hempty with hnil | hle
    · rw [hnil] at hp; cases hp
    · exact absurd hpos (not_lt.2 hle)
  · rename_i hfull
    rw [not_or, not_le] at hfull
    rw [Dict.get?_mapValues, Dict.get?_foldl_tally, hheld]
    split
    · rename_i hs
      simp only [hs, hfull.2, true_and, Option.map_some, Dict.get?_empty, Option.getD_none, zero_add,
        Option.some.injEq]
      exact eq_comm
    · rename_i hs
      rw [Dict.get?_empty, Option.map_none]
      exact iff_of_false (fun h => by cases h) fun h => hs h.2.1

/-- A share that is not listed counts as zero, as does the value behind it. -/
theorem getD_sectorAllocations (master : StockMaster) (acct : Account) (sector : String)
    (hpos : 0 < acct.balance.totalAssets) :
    ((getCurrentState master acct).sectorAllocations.get? sector).getD 0 =
      acct.valueIn (fun s => master.sectorOf s = sector) / acct.balance.totalAssets * 100 := by
  cases h : (getCurrentState master acct).sectorAllocations.get? sector with
  | some share => exact ((getSectorAllocations_eq_some_iff master acct sector share).1 h).2.2
  | none =>
    have hnone : ∀ p ∈ acct.positions, ¬ master.sectorOf p.symbol = sector := by
      intro p hp hs
      have hsome := (getSectorAllocations_eq_some_iff master acct sector _).2
        ⟨hpos, ⟨p.symbol, ⟨p, hp, rfl⟩, hs⟩, rfl⟩
      rw [hsome] at h
      cases h
    have hnil : acct.positions.filter (fun p => decide (master.sectorOf p.symbol = sector)) = [] := by
      rw [List.filter_eq_nil_iff]
      exact fun p hp h => hnone p hp (of_decide_eq_true h)
    rw [Option.getD_none, Account.valueIn, hnil, List.map_nil, List.sum_nil, zero_div, zero_mul]

end PortfolioStateService

end TradingAgent
