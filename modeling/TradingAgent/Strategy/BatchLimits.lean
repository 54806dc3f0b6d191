/-
The limits of a portfolio against the signals of one batch. Every entry of a batch is checked against the
portfolio as it stood before the batch, so signals that pass one by one can break a limit together. They
keep within the limits, in any order of execution, exactly if each of them would also have passed the
check in the portfolio to which the entries before it were added.
-/
import TradingAgent.Strategy.SignalGeneration
import TradingAgent.Strategy.RiskExact
import TradingAgent.Lib.Admission
import Mathlib.Data.Finset.Card

namespace TradingAgent

open PortfolioStateService

namespace AlgoRiskManager

/-! ## The rules that depend on the holdings -/

variable (cfg : Settings) (state : PortfolioState) (symbol : String) (q : ℤ) (price : Decimal) (sector : String)

theorem checkMaxPosition_ok_iff : (checkMaxPosition cfg state symbol q price).violation = none ↔
    existingValue state symbol + q * price ≤
      min (state.totalValue * cfg.maxPositionPct / 100) (cfg.maxPositionSizeKrw : Decimal) := by
  simp only [checkMaxPosition, gt_iff_lt]
  split
  · rename_i h
    exact iff_of_false (by simp) (not_le.2 h)
  · rename_i h
    exact iff_of_true rfl (not_lt.1 h)

theorem checkMaxHoldings_ok_iff : (checkMaxHoldings cfg state symbol).violation = none ↔
    symbol ∈ heldSymbols state ∨ ((heldSymbols state).length : ℤ) < cfg.maxPortfolioPositions := by
  unfold checkMaxHoldings
  split
  · rename_i h
    exact iff_of_true rfl (.inl h)
  · rename_i h
    split
    · rename_i hmax
      exact iff_of_false (by simp) (not_or.2 ⟨h, not_lt.2 hmax⟩)
    · rename_i hmax
      exact iff_of_true rfl (.inr (not_le.1 hmax))

theorem checkSectorConcentration_ok_iff :
    (checkSectorConcentration cfg state q price sector).violation = none ↔
      (state.sectorAllocations.get? sector).getD 0 + q * price / state.totalValue * 100 ≤
        cfg.sectorConcentrationPct := by
  simp only [checkSectorConcentration, gt_iff_lt]
  split
  · rename_i h
    exact iff_of_false (by simp) (not_le.2 h)
  · rename_i h
    exact iff_of_true rfl (not_lt.1 h)

theorem checkDailyTrades_ok_iff : (checkDailyTrades cfg state).violation = none ↔
    state.dailyTradeCount < cfg.maxDailyTrades := by
  unfold checkDailyTrades
  split
  · rename_i h
    exact iff_of_false (by simp) (not_lt.2 h)
  · rename_i h
    exact iff_of_true rfl (not_le.1 h)

theorem checkDailyLossLimit_ok_iff : (checkDailyLossLimit cfg state).violation = none ↔
    -cfg.dailyLossLimitPct ≤ state.dailyPnlPct ∧ -(cfg.dailyLossLimitKrw : Decimal) ≤ state.dailyPnl := by
  unfold checkDailyLossLimit
  by_cases hpct : state.dailyPnlPct < -cfg.dailyLossLimitPct
  · simp [hpct]
  · by_cases hkrw : state.dailyPnl < -(cfg.dailyLossLimitKrw : Decimal)
    · simp [hpct, hkrw]
    · simp [hpct, hkrw, not_lt.1 hpct, not_lt.1 hkrw]

/-- A trade whose risk fits the budget of one portfolio fits a budget that is no smaller. -/
theorem checkPositionSizing_mono {cfg : Settings} {state state' : PortfolioState} {q : ℤ} {price : Decimal}
    {stopLossPrice : Option Decimal}
    (h : state.totalValue * cfg.riskPerTradePct ≤ state'.totalValue * cfg.riskPerTradePct)
    (hok : (checkPositionSizing cfg state q price stopLossPrice).violation = none) :
    (checkPositionSizing cfg state' q price stopLossPrice).violation = none := by
  cases stopLossPrice with
  | none => rfl
  | some stop =>
    by_cases hzero : |price - stop| = 0
    · simp only [checkPositionSizing, if_pos hzero]
    · simp only [checkPositionSizing, if_neg hzero] at hok ⊢
      split at hok
      · cases hok
      · rename_i hfits
        rw [if_neg fun hgt => hfits (lt_of_le_of_lt (div_le_div_of_nonneg_right h (by norm_num)) hgt)]

end AlgoRiskManager

/-! ## The limits -/

/-- The portfolio keeps the limits on its holdings: their number, the trades of the day, the share of every
sector and the value of every symbol. -/
structure InLimits (cfg : Settings) (state : PortfolioState) : Prop where
  holdings : ((AlgoRiskManager.heldSymbols state).length : ℤ) ≤ cfg.maxPortfolioPositions
  trades : state.dailyTradeCount ≤ cfg.maxDailyTrades
  sectors : ∀ sector share, state.sectorAllocations.get? sector = some share →
    share ≤ cfg.sectorConcentrationPct
  symbols : ∀ symbol ∈ AlgoRiskManager.heldSymbols state, AlgoRiskManager.existingValue state symbol ≤
    min (state.totalValue * cfg.maxPositionPct / 100) (cfg.maxPositionSizeKrw : Decimal)

section Limits

open AlgoRiskManager

variable {cfg : Settings} {master : StockMaster} {acct : Account} {symbol : String} {quantity : ℤ}
  {price : Decimal}

theorem mem_heldSymbols (s : String) : s ∈ heldSymbols (getCurrentState master acct) ↔ acct.Holds s := by
  rw [acct.holds_iff]; exact List.mem_dedup

/-- What is within the limits stays within them with less. -/
theorem InLimits.down {a b : Account} (h : a ≤ b) (hb : InLimits cfg (getCurrentState master b)) :
    InLimits cfg (getCurrentState master a) := by
  obtain ⟨⟨htotal, -⟩, hholds, hentries, hvalue⟩ := h
  have htotal' : (getCurrentState master a).totalValue = (getCurrentState master b).totalValue := htotal
  have hsub : heldSymbols (getCurrentState master a) ⊆ heldSymbols (getCurrentState master b) := by
    intro s hs
    rw [mem_heldSymbols] at hs ⊢
    exact hholds s hs
  constructor
  · have hlen : (heldSymbols (getCurrentState master a)).length ≤
        (heldSymbols (getCurrentState master b)).length :=
      (List.subperm_of_subset (List.nodup_dedup _) hsub).length_le
    exact (Int.ofNat_le.2 hlen).trans hb.holdings
  · have hcount : (a.entriesToday : ℤ) ≤ b.entriesToday := Int.ofNat_le.2 hentries
    exact hcount.trans hb.trades
  · intro sector share hshare
    obtain ⟨hpos, ⟨s, hs, hsec⟩, rfl⟩ := (getSectorAllocations_eq_some_iff master a sector share).1 hshare
    have hlisted := (getSectorAllocations_eq_some_iff master b sector _).2
      ⟨htotal ▸ hpos, ⟨s, hholds s hs, hsec⟩, rfl⟩
    refine le_trans ?_ (hb.sectors sector _ hlisted)
    rw [← htotal]
    exact mul_le_mul_of_nonneg_right (div_le_div_of_nonneg_right (hvalue _) hpos.le) (by norm_num)
  · intro s hs
    rw [htotal']
    exact (hvalue (fun x => x = s)).trans (hb.symbols s (hsub hs))

/-- Accounts with the same totals get the same answers from the rules that look at nothing else. -/
theorem sameTotals (cfg : Settings) (master : StockMaster) {a b : Account} (h : a ≤ b) :
    (getCurrentState master b).totalValue = (getCurrentState master a).totalValue ∧
    (∀ q price stop, checkPositionSizing cfg (getCurrentState master b) q price stop =
      checkPositionSizing cfg (getCurrentState master a) q price stop) ∧
    checkMaxDrawdown cfg (getCurrentState master b) = checkMaxDrawdown cfg (getCurrentState master a) ∧
    checkDailyLossLimit cfg (getCurrentState master b) = checkDailyLossLimit cfg (getCurrentState master a) := by
  obtain ⟨⟨htotal, hpnl, hpct, hpeak⟩, -⟩ := h
  have hvalue' : (getCurrentState master b).totalValue = (getCurrentState master a).totalValue := htotal.symm
  have hdrawdown' : (getCurrentState master b).drawdownPct = (getCurrentState master a).drawdownPct := by
    simp only [getCurrentState, htotal, hpeak]
  have hpnl' : (getCurrentState master b).dailyPnl = (getCurrentState master a).dailyPnl := hpnl.symm
  have hpct' : (getCurrentState master b).dailyPnlPct = (getCurrentState master a).dailyPnlPct := hpct.symm
  refine ⟨hvalue', fun q price stop => ?_, ?_, ?_⟩
  · unfold checkPositionSizing
    rw [hvalue']
  · unfold checkMaxDrawdown
    rw [hdrawdown']
  · unfold checkDailyLossLimit
    rw [hpnl', hpct']

/-! ## One purchase -/

theorem length_heldSymbols_buy :
    (heldSymbols (getCurrentState master (acct.buy symbol quantity price))).length =
      (heldSymbols (getCurrentState master acct)).length +
        if symbol ∈ heldSymbols (getCurrentState master acct) then 0 else 1 := by
  have hmap := Account.map_symbol_addShares symbol quantity price acct.positions
  have hmem : symbol ∈ heldSymbols (getCurrentState master acct) ↔ symbol ∈ acct.positions.map (·.symbol) :=
    List.mem_dedup
  show ((Account.addShares symbol quantity price acct.positions).map (·.symbol)).dedup.length =
    (acct.positions.map (·.symbol)).dedup.length + _
  rw [hmap]
  by_cases hs : symbol ∈ acct.positions.map (·.symbol)
  · rw [if_pos hs, if_pos (hmem.2 hs), add_zero]
  · rw [if_neg hs, if_neg fun h => hs (hmem.1 h), ← List.card_toFinset, ← List.card_toFinset,
      List.toFinset_append, List.toFinset_cons, List.toFinset_nil, insert_empty_eq, Finset.union_singleton,
      Finset.card_insert_of_notMem fun h => hs (List.mem_toFinset.1 h)]

theorem existingValue_buy (s : String) :
    existingValue (getCurrentState master (acct.buy symbol quantity price)) s =
      existingValue (getCurrentState master acct) s + if s = symbol then quantity * price else 0 := by
  have hvalue := acct.valueIn_buy symbol quantity price (fun x => x = s)
  simp only [decide_eq_true_eq, eq_comm (a := symbol)] at hvalue
  exact hvalue

/-- The holdings stay few enough exactly if the rule on their number lets the symbol through. -/
theorem holdings_buy_iff
    (h : ((heldSymbols (getCurrentState master acct)).length : ℤ) ≤ cfg.maxPortfolioPositions) :
    ((heldSymbols (getCurrentState master (acct.buy symbol quantity price))).length : ℤ) ≤
        cfg.maxPortfolioPositions ↔
      (checkMaxHoldings cfg (getCurrentState master acct) symbol).violation = none := by
  rw [checkMaxHoldings_ok_iff, length_heldSymbols_buy]
  split
  · rename_i hs
    exact iff_of_true h (.inl hs)
  · rename_i hs
    simp only [hs, false_or]
    omega

theorem trades_buy_iff :
    (getCurrentState master (acct.buy symbol quantity price)).dailyTradeCount ≤ cfg.maxDailyTrades ↔
      (checkDailyTrades cfg (getCurrentState master acct)).violation = none := by
  rw [checkDailyTrades_ok_iff]
  show ((acct.entriesToday + 1 : ℕ) : ℤ) ≤ _ ↔ (acct.entriesToday : ℤ) < _
  omega

/-- The sectors keep their limit exactly if the rule for the sector of the symbol lets the amount through. -/
theorem sectors_buy_iff (hpos : 0 < acct.balance.totalAssets)
    (h : ∀ sector share, (getCurrentState master acct).sectorAllocations.get? sector = some share →
      share ≤ cfg.sectorConcentrationPct) :
    (∀ sector share,
        (getCurrentState master (acct.buy symbol quantity price)).sectorAllocations.get? sector = some share →
        share ≤ cfg.sectorConcentrationPct) ↔
      (checkSectorConcentration cfg (getCurrentState master acct) quantity price
        (master.sectorOf symbol)).violation = none := by
  rw [checkSectorConcentration_ok_iff, getD_sectorAllocations master acct _ hpos]
  have hown : (acct.buy symbol quantity price).valueIn (fun s => master.sectorOf s = master.sectorOf symbol) /
        acct.balance.totalAssets * 100 =
      acct.valueIn (fun s => master.sectorOf s = master.sectorOf symbol) / acct.balance.totalAssets * 100 +
        quantity * price / acct.balance.totalAssets * 100 := by
    rw [Account.valueIn_buy, if_pos (by simp), add_div, add_mul]
  constructor
  · intro hall
    -- after the purchase the sector of the symbol is always listed
    refine hown ▸ hall _ _ ((getSectorAllocations_eq_some_iff master _ _ _).2 ⟨hpos, ⟨symbol, ?_, rfl⟩, rfl⟩)
    exact (acct.holds_buy symbol symbol quantity price).2 (.inl rfl)
  · intro hle sector share hshare
    obtain ⟨-, ⟨s, hs, hsec⟩, rfl⟩ := (getSectorAllocations_eq_some_iff master _ sector share).1 hshare
    by_cases hsector : master.sectorOf symbol = sector
    · subst hsector
      exact hown.trans_le hle
    · rw [Account.valueIn_buy, if_neg (by simpa using hsector), add_zero]
      refine h sector _ ((getSectorAllocations_eq_some_iff master acct sector _).2 ⟨hpos, ⟨s, ?_, hsec⟩, rfl⟩)
      rcases (acct.holds_buy symbol s quantity price).1 hs with rfl | hs
      · exact absurd hsec hsector
      · exact hs

/-- The symbols keep their caps exactly if the rule for the symbol lets the amount through. -/
theorem symbols_buy_iff
    (h : ∀ s ∈ heldSymbols (getCurrentState master acct), existingValue (getCurrentState master acct) s ≤
      min (acct.balance.totalAssets * cfg.maxPositionPct / 100) (cfg.maxPositionSizeKrw : Decimal)) :
    (∀ s ∈ heldSymbols (getCurrentState master (acct.buy symbol quantity price)),
        existingValue (getCurrentState master (acct.buy symbol quantity price)) s ≤
          min (acct.balance.totalAssets * cfg.maxPositionPct / 100) (cfg.maxPositionSizeKrw : Decimal)) ↔
      (checkMaxPosition cfg (getCurrentState master acct) symbol quantity price).violation = none := by
  rw [checkMaxPosition_ok_iff]
  constructor
  · intro hall
    have hsym := hall symbol ((mem_heldSymbols symbol).2 ((acct.holds_buy ..).2 (.inl rfl)))
    rw [existingValue_buy, if_pos rfl] at hsym
    exact hsym
  · intro hle s hs
    rw [existingValue_buy]
    split
    · rename_i hsym
      rw [hsym]
      exact hle
    · rename_i hsym
      rw [add_zero]
      rw [mem_heldSymbols, Account.holds_buy] at hs
      exact h s ((mem_heldSymbols s).2 (hs.resolve_left hsym))

/-- A purchase leaves a portfolio within the limits exactly if the rules on the holdings let it through. -/
theorem inLimits_buy_iff (hpos : 0 < acct.balance.totalAssets)
    (h : InLimits cfg (getCurrentState master acct)) :
    InLimits cfg (getCurrentState master (acct.buy symbol quantity price)) ↔
      (checkMaxPosition cfg (getCurrentState master acct) symbol quantity price).violation = none ∧
      (checkMaxHoldings cfg (getCurrentState master acct) symbol).violation = none ∧
      (checkSectorConcentration cfg (getCurrentState master acct) quantity price
        (master.sectorOf symbol)).violation = none ∧
      (checkDailyTrades cfg (getCurrentState master acct)).violation = none := by
  constructor
  · intro hbuy
    exact ⟨(symbols_buy_iff h.symbols).1 hbuy.symbols, (holdings_buy_iff h.holdings).1 hbuy.holdings,
      (sectors_buy_iff hpos h.sectors).1 hbuy.sectors, trades_buy_iff.1 hbuy.trades⟩
  · rintro ⟨hsymbols, hholdings, hsectors, htrades⟩
    exact ⟨(holdings_buy_iff h.holdings).2 hholdings, trades_buy_iff.2 htrades,
      (sectors_buy_iff hpos h.sectors).2 hsectors, (symbols_buy_iff h.symbols).2 hsymbols⟩

end Limits

namespace SignalGeneration

open Admission

/-! ## The entries of a batch -/

variable (strategy : StrategyType) (S : SignalSources) (cfg : Settings) (acct : Account)
  (result : PipelineResult)

/-- The signals of a strategy on the result of a pipeline. -/
def generateSignals : Except Exn (List Signal) :=
  match strategy with
  | .position => PositionTradingStrategy.generateSignals S cfg acct result
  | .swing => SwingTradingStrategy.generateSignals S cfg acct result

/-- Entry conditions and sizing of a strategy. -/
def sizedEntry : TradeDecision → Except Exn (Option SizedEntry) :=
  let totalValue := (getCurrentState S.master acct).totalValue
  match strategy with
  | .position => PositionTradingStrategy.sizedEntry S cfg totalValue (analysisMap result)
  | .swing => SwingTradingStrategy.sizedEntry S cfg totalValue (analysisMap result)

/-- The decisions that clear the entry conditions and the sizing, as entries. -/
def entries : List SizedEntry :=
  result.tradeDecisions.filterMap (fun d => (sizedEntry strategy S cfg acct result d).toOption.join)

/-- Add an entry to an account. -/
def enter (a : Account) (entry : SizedEntry) : Account :=
  a.buy entry.symbol entry.quantity entry.entryPrice

/-- Carry out a BUY signal at its entry price. -/
def execute (a : Account) (signal : Signal) : Account :=
  a.buy signal.symbol signal.quantity (signal.positionValueKrw / signal.quantity)

/-- Each entry that the risk manager lets through would also pass in the portfolio to which the entries
before it were added. -/
def Composes : Prop :=
  Admitted enter (Accepts S cfg) acct
    ((entries strategy S cfg acct result).filter (fun e => Accepts S cfg acct e))

instance : Decidable (Composes strategy S cfg acct result) :=
  instDecidableAdmitted enter acct _

theorem generateSignals_eq : generateSignals strategy S cfg acct result =
    collect S cfg acct (sizedEntry strategy S cfg acct result) result.tradeDecisions := by
  cases strategy with
  | position => rfl
  | swing => rfl

/-- The loop keeps the entries that the risk manager lets through. -/
theorem collect_ok {sized : TradeDecision → Except Exn (Option SizedEntry)} :
    ∀ {decisions : List TradeDecision} {signals : List Signal},
    collect S cfg acct sized decisions = .ok signals →
    signals = ((decisions.filterMap (fun d => (sized d).toOption.join)).filter
      (fun e => Accepts S cfg acct e)).map (toSignal S cfg acct)
  | [], signals, h => by
    cases h
    rfl
  | decision :: decisions, signals, h => by
    unfold collect at h
    cases hsized : sized decision with
    | error e =>
      rw [hsized] at h
      cases h
    | ok found =>
      rw [hsized] at h
      cases found with
      | none =>
        rw [List.filterMap_cons_none (by rw [hsized]; rfl)]
        exact collect_ok h
      | some entry =>
        rw [List.filterMap_cons_some (b := entry) (by rw [hsized]; rfl), List.filter_cons]
        change (if Accepts S cfg acct entry then collect S cfg acct sized decisions >>=
          fun rest => pure (toSignal S cfg acct entry :: rest) else collect S cfg acct sized decisions) =
            .ok signals at h
        split at h
        · rename_i hacc
          cases hrest : collect S cfg acct sized decisions with
          | error e =>
            rw [hrest] at h
            cases h
          | ok rest =>
            rw [hrest] at h
            cases h
            rw [if_pos (by simpa using hacc), List.map_cons, ← collect_ok hrest]
        · rename_i hacc
          rw [if_neg (by simpa using hacc)]
          exact collect_ok h

theorem accepts_iff (entry : SizedEntry) : Accepts S cfg acct entry ↔
    (riskCheck S cfg acct entry).passed = true := by
  constructor
  · exact And.left
  · intro h
    refine ⟨h, ?_⟩
    have hadj := AlgoRiskManager.adjusted_eq_of_passed _ _ _ _ _ _ _ entry.quantity_pos h
    exact hadj ▸ entry.quantity_pos

theorem execute_toSignal {entry : SizedEntry} (h : Accepts S cfg acct entry) (a : Account) :
    execute a (toSignal S cfg acct entry) = enter a entry := by
  have hadj : (riskCheck S cfg acct entry).adjustedQuantity = entry.quantity :=
    AlgoRiskManager.adjusted_eq_of_passed _ _ _ _ _ _ _ entry.quantity_pos h.1
  have hq : (entry.quantity : Decimal) ≠ 0 := Int.cast_ne_zero.2 entry.quantity_pos.ne'
  simp only [execute, toSignal, enter, hadj, mul_div_cancel_right₀ _ hq]

/-- In an account with the same totals and within the limits, the risk manager lets an entry through
exactly if it leaves the limits intact. -/
theorem accepts_iff_inLimits {entry : SizedEntry} (h : Accepts S cfg acct entry) {a : Account}
    (hle : acct ≤ a) (ha : InLimits cfg (getCurrentState S.master a)) :
    Accepts S cfg a entry ↔ InLimits cfg (getCurrentState S.master (enter a entry)) := by
  rw [accepts_iff, riskCheck, AlgoRiskManager.passed_buy_iff] at h ⊢
  obtain ⟨hpos, hsizing, -, -, -, hdrawdown, hloss, -⟩ := h
  obtain ⟨htotal, hsizing', hdrawdown', hloss'⟩ := sameTotals cfg S.master hle
  have hpos' : 0 < a.balance.totalAssets := lt_of_lt_of_eq hpos.2 htotal.symm
  rw [htotal, hsizing', hdrawdown', hloss', enter, inLimits_buy_iff hpos' ha]
  tauto

/-! ## The batch -/

/-- The signals of one call keep a portfolio within its limits, in whatever order they are carried out,
exactly if each entry would also have passed in the portfolio to which the ones before it were added. -/
theorem batch_inLimits_iff {signals : List Signal}
    (hrun : generateSignals strategy S cfg acct result = .ok signals)
    (hlimits : InLimits cfg (getCurrentState S.master acct)) :
    (∀ order : List Signal, order.Perm signals →
      InLimits cfg (getCurrentState S.master (order.foldl execute acct))) ↔
    Composes strategy S cfg acct result := by
  let accepted := (entries strategy S cfg acct result).filter (fun e => Accepts S cfg acct e)
  have hacc : ∀ e ∈ accepted, Accepts S cfg acct e := fun e he =>
    of_decide_eq_true (List.mem_filter.1 he).2
  have hsignals : signals = accepted.map (toSignal S cfg acct) := by
    rw [generateSignals_eq] at hrun
    exact collect_ok S cfg acct hrun
  have hend : signals.foldl execute acct = accepted.foldl enter acct := by
    rw [hsignals, List.foldl_map]
    exact List.foldl_ext _ _ _ fun a e he => execute_toSignal S cfg acct (hacc e he) a
  -- one entry at a time: letting it through and staying within the limits come to the same
  let limits := fun a => InLimits cfg (getCurrentState S.master a)
  have hdown : ∀ {a b : Account}, a ≤ b → limits b → limits a := InLimits.down
  have hadmitted : Composes strategy S cfg acct result ↔ limits (accepted.foldl enter acct) :=
    admitted_iff hdown (fun e _ a => a.le_buy e.quantity_pos e.entryPrice_pos)
      (fun e he _ hle ha => accepts_iff_inLimits S cfg acct (hacc e he) hle ha) le_rfl hlimits
  -- purchases add up, so that the order does not matter
  have hmono : ∀ {a b : Account} (signal : Signal), a ≤ b → execute a signal ≤ execute b signal :=
    fun signal h => Account.buy_mono h _ _ _
  have hcomm : ∀ (a : Account) (s₁ s₂ : Signal), execute (execute a s₁) s₂ ≤ execute (execute a s₂) s₁ :=
    fun a s₁ s₂ => a.buy_comm _ _ _ _ _ _
  rw [hadmitted, ← hend]
  have horders := limits_of_every_order_iff hmono hcomm hdown acct (l := signals)
  exact horders

/-! ## Two signals of one call -/

/-- The moving average computed exactly, and no other indicator. -/
def exactSma : Indicators where
  sma close window := .ok ((List.range close.length).map (fun i : ℕ =>
    if ((i + 1 : ℕ) : ℤ) < window then none
    else some (((close.take (i + 1)).drop (i + 1 - window.toNat)).sum / window)))
  rsi _ _ := .error .indicatorError
  macd _ := .error .indicatorError
  bollingerLower _ _ := .error .indicatorError
  averageTrueRange _ _ _ _ := .error .indicatorError
  toFloat x := x
  ofFloat x := x

/-- Sixty bars that rise by 200 won a day to a close of 70,000 won, each over a range of 1,000 won. -/
def risingBars : List OHLCV :=
  (List.range 60).map (fun i : ℕ =>
    { date := i, high := 58700 + 200 * i, low := 57700 + 200 * i, close := 58200 + 200 * i })

/-- A market in which every stock rises like this and belongs to one sector. -/
def risingMarket : SignalSources where
  getDailyOhlcv _ _ := .ok risingBars
  indicators := exactSma
  returns := AlgoRiskManager.noReturns
  master := ⟨fun _ => some "전기전자"⟩

/-- An account of ten million won in cash. -/
def tenMillionInCash : Account :=
  { balance := { totalAssets := 10000000, cash := 10000000, invested := 0, timestamp := none } }

/-- A pipeline result that decides to buy the stocks at 70,000 won. -/
def buyDecisions (symbols : List String) : PipelineResult where
  stockAnalyses := symbols.map (fun s => { symbol := s, action := .buy, confidence := 8 / 10, fundamentalScore := 60 })
  tradeDecisions := symbols.map (fun s => { symbol := s, action := .buy, price := some 70000 })

/-- The signal for one of them: 14 shares, all that the cap of one million won for a symbol allows. -/
def fourteenShares (symbol : String) : Signal where
  symbol
  action := .buy
  confidence := 8 / 10
  targetPrice := some 73000
  stopLossPrice := some 68000
  quantity := 14
  positionValueKrw := 980000
  reasoning := .positionEntry (8 / 10) 60 (some 68100) (some 64100) 1000 68000 73000 14

theorem tenMillionInCash_inLimits :
    InLimits {} (getCurrentState risingMarket.master tenMillionInCash) where
  holdings := by decide
  trades := by decide
  sectors sector share h := by cases h
  symbols s hs := by cases hs

/-- Bought for two different symbols, both signals of a call keep within the limits, in either order. -/
theorem twoSymbols_inLimits :
    generateSignals .position risingMarket {} tenMillionInCash (buyDecisions ["005930", "000660"]) =
      .ok [fourteenShares "005930", fourteenShares "000660"] ∧
    ∀ order : List Signal, order.Perm [fourteenShares "005930", fourteenShares "000660"] →
      InLimits {} (getCurrentState risingMarket.master (order.foldl execute tenMillionInCash)) := by
  have hrun : generateSignals .position risingMarket {} tenMillionInCash
      (buyDecisions ["005930", "000660"]) =
      .ok [fourteenShares "005930", fourteenShares "000660"] := by decide +kernel
  have hcomposes : Composes .position risingMarket {} tenMillionInCash
      (buyDecisions ["005930", "000660"]) := by decide +kernel
  exact ⟨hrun, (batch_inLimits_iff .position risingMarket {} tenMillionInCash _ hrun
    tenMillionInCash_inLimits).2 hcomposes⟩

/-- Two decisions on one symbol become two signals of 14 shares; together they hold 1,960,000 won in the
symbol, against a cap of one million. -/
theorem sameSymbol_breaks_cap :
    generateSignals .position risingMarket {} tenMillionInCash (buyDecisions ["005930", "005930"]) =
      .ok [fourteenShares "005930", fourteenShares "005930"] ∧
    InLimits {} (getCurrentState risingMarket.master tenMillionInCash) ∧
    ¬ InLimits {} (getCurrentState risingMarket.master
      ([fourteenShares "005930", fourteenShares "005930"].foldl execute tenMillionInCash)) := by
  refine ⟨by decide +kernel, tenMillionInCash_inLimits, fun h => ?_⟩
  have hcap := h.symbols "005930" (by decide +kernel)
  exact absurd hcap (by decide +kernel)

end SignalGeneration

end TradingAgent
