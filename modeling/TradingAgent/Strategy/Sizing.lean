/-
Position sizing against the risk rules. The sizer cuts a quantity down with two truncated quotients and
keeps at least one share, the rules truncate one quotient of a minimum and compare costs with budgets.
For a symbol that is not held both arrive at the same numbers, and the sized quantity can only fail the
rule on the risk of a trade, through the one share the sizer insists on.
-/
import TradingAgent.Strategy.BatchLimits
import TradingAgent.Strategy.SizerCaps

namespace TradingAgent

namespace AlgoRiskManager

/-! ## What the two rules report -/

section Rules

variable {cfg : Settings} {state : PortfolioState} {symbol : String} {price stop : Decimal} (q : ℤ)

theorem checkPositionSizing_maxQuantity (h : stop ≠ price) :
    (checkPositionSizing cfg state q price (some stop)).maxQuantity =
      some (Rounding.trunc (state.totalValue * cfg.riskPerTradePct / 100 / |price - stop|)) := by
  have hrisk : |price - stop| ≠ 0 := abs_ne_zero.2 (sub_ne_zero.2 h.symm)
  simp only [checkPositionSizing, hrisk, if_false]
  split <;> rfl

theorem checkPositionSizing_violation_iff (h : stop ≠ price) :
    (checkPositionSizing cfg state q price (some stop)).violation = some "RISK_PER_TRADE" ↔
      state.totalValue * cfg.riskPerTradePct / 100 < q * |price - stop| := by
  have hrisk : |price - stop| ≠ 0 := abs_ne_zero.2 (sub_ne_zero.2 h.symm)
  simp only [checkPositionSizing, hrisk, if_false, gt_iff_lt]
  split
  · rename_i hlt
    exact iff_of_true rfl hlt
  · rename_i hlt
    exact iff_of_false (by simp) hlt

theorem existingValue_eq_zero (h : ∀ p ∈ state.positions, p.symbol ≠ symbol) :
    existingValue state symbol = 0 := by
  have hnone : state.positions.filter (fun p => p.symbol = symbol) = [] :=
    List.filter_eq_nil_iff.2 fun p hp => by simpa using h p hp
  unfold existingValue
  rw [hnone, List.map_nil, List.sum_nil]

/-- Of a symbol that is not held there is room for what both caps have room for. -/
theorem checkMaxPosition_maxQuantity (h : ∀ p ∈ state.positions, p.symbol ≠ symbol) (hp : 0 < price)
    (hpct : 0 ≤ state.totalValue * cfg.maxPositionPct / 100) (hkrw : 0 ≤ (cfg.maxPositionSizeKrw : Decimal)) :
    (checkMaxPosition cfg state symbol q price).maxQuantity =
      some (min (Rounding.trunc (state.totalValue * cfg.maxPositionPct / 100 / price))
        (Rounding.trunc ((cfg.maxPositionSizeKrw : Decimal) / price))) := by
  have hlimit : 0 ≤ min (state.totalValue * cfg.maxPositionPct / 100) (cfg.maxPositionSizeKrw : Decimal) :=
    le_min hpct hkrw
  have hroom : (checkMaxPosition cfg state symbol q price).maxQuantity = some (Rounding.trunc
      (min (state.totalValue * cfg.maxPositionPct / 100) (cfg.maxPositionSizeKrw : Decimal) / price)) := by
    simp only [checkMaxPosition, existingValue_eq_zero h, sub_zero]
    generalize min (state.totalValue * cfg.maxPositionPct / 100) (cfg.maxPositionSizeKrw : Decimal) = limit
      at hlimit
    -- the rule reports zero where nothing is left, which is what the quotient says there
    have hzero : (if limit ≤ 0 then 0 else Rounding.trunc (limit / price)) = Rounding.trunc (limit / price) := by
      split
      · rename_i hle
        rw [le_antisymm hle hlimit, zero_div]
        rfl
      · rfl
    rw [hzero]
    split <;> rfl
  rw [hroom, ← Rounding.trunc_mono.map_min, min_div_div_right hp.le]

end Rules

end AlgoRiskManager

namespace PositionSizer

open AlgoRiskManager

/-- A purchase to be sized: a portfolio with a value and without the symbol, prices above zero that differ,
and limits that are not negative. -/
structure Fresh (cfg : Settings) (state : PortfolioState) (symbol : String) (entryPrice stopLossPrice : Decimal) :
    Prop where
  total : 0 < state.totalValue
  unheld : ∀ p ∈ state.positions, p.symbol ≠ symbol
  entry : 0 < entryPrice
  stop : 0 < stopLossPrice
  differ : stopLossPrice ≠ entryPrice
  riskPct : 0 ≤ cfg.riskPerTradePct
  positionPct : 0 ≤ cfg.maxPositionPct
  positionKrw : 0 ≤ cfg.maxPositionSizeKrw

variable {cfg : Settings} {state : PortfolioState} {symbol : String} {entryPrice stopLossPrice : Decimal}

namespace Fresh

variable (h : Fresh cfg state symbol entryPrice stopLossPrice)

include h

theorem risk_pos : 0 < |entryPrice - stopLossPrice| :=
  abs_pos.2 (sub_ne_zero.2 h.differ.symm)

theorem budget_nonneg : 0 ≤ state.totalValue * cfg.riskPerTradePct / 100 :=
  div_nonneg (mul_nonneg h.total.le h.riskPct) (by norm_num)

theorem pctLimit_nonneg : 0 ≤ state.totalValue * cfg.maxPositionPct / 100 :=
  div_nonneg (mul_nonneg h.total.le h.positionPct) (by norm_num)

theorem hardCap_nonneg : 0 ≤ (cfg.maxPositionSizeKrw : Decimal) :=
  Int.cast_nonneg h.positionKrw

/-- The sizer answers, with the least of the two caps and of the quantity by risk, which is one at least. -/
theorem calculate_quantity (takeProfitPrice : Option Decimal) : ∃ sizing,
    calculate cfg symbol entryPrice stopLossPrice takeProfitPrice state.totalValue = .ok sizing ∧
      sizing.quantity =
        min (max 1 (Rounding.trunc (state.totalValue * cfg.riskPerTradePct / 100 / |entryPrice - stopLossPrice|)))
          (min (Rounding.trunc (state.totalValue * cfg.maxPositionPct / 100 / entryPrice))
            (Rounding.trunc ((cfg.maxPositionSizeKrw : Decimal) / entryPrice))) := by
  have hpct := Rounding.trunc_nonneg (div_nonneg h.pctLimit_nonneg h.entry.le)
  have hkrw := Rounding.trunc_nonneg (div_nonneg h.hardCap_nonneg h.entry.le)
  have hnone : Rounding.trunc ((0 : Decimal) / entryPrice) = 0 := by rw [zero_div]; rfl
  let r : SizingRequest :=
    { cfg, symbol, entryPrice, stopLossPrice, takeProfitPrice, totalPortfolioValue := state.totalValue
      entry_pos := h.entry, stop_pos := h.stop, differ := h.differ.symm, total_pos := h.total
      existing_nonneg := le_rfl, riskPct_nonneg := h.riskPct, positionPct_nonneg := h.positionPct
      positionKrw_nonneg := h.positionKrw }
  obtain ⟨sizing, hcalc, hquantity⟩ := r.calculate_quantity
  refine ⟨sizing, hcalc, ?_⟩
  rw [hquantity, SizingRequest.seenRoom, r.trunc_positionCap, hnone]
  unfold SizingRequest.riskQuantity SizingRequest.riskBudget SizingRequest.riskPerShare
  dsimp only [r]
  omega

/-- A quantity keeps within both caps exactly if the rule on the position lets it through. -/
theorem le_caps_iff (q : ℤ) :
    q ≤ min (Rounding.trunc (state.totalValue * cfg.maxPositionPct / 100 / entryPrice))
        (Rounding.trunc ((cfg.maxPositionSizeKrw : Decimal) / entryPrice)) ↔
      (checkMaxPosition cfg state symbol q entryPrice).violation = none := by
  rw [checkMaxPosition_ok_iff, existingValue_eq_zero h.unheld, zero_add, le_min_iff, le_min_iff,
    Rounding.le_trunc_div_iff h.pctLimit_nonneg h.entry, Rounding.le_trunc_div_iff h.hardCap_nonneg h.entry]

end Fresh

/-- The sized quantity is the smaller of the largest quantities the two rules report, except that the risk of
the trade never brings it below one share. Therefore the rule on the position accepts it, and the rule on the
risk rejects it exactly if one share already exceeds the budget and the caps have room for that share. -/
theorem calculate_agrees (h : Fresh cfg state symbol entryPrice stopLossPrice)
    (takeProfitPrice : Option Decimal) : ∃ sizing m₁ m₂,
    calculate cfg symbol entryPrice stopLossPrice takeProfitPrice state.totalValue = .ok sizing ∧
    (∀ q, (checkPositionSizing cfg state q entryPrice (some stopLossPrice)).maxQuantity = some m₁) ∧
    (∀ q, (checkMaxPosition cfg state symbol q entryPrice).maxQuantity = some m₂) ∧
    sizing.quantity = min (max 1 m₁) m₂ ∧
    (checkMaxPosition cfg state symbol sizing.quantity entryPrice).violation = none ∧
    ((checkPositionSizing cfg state sizing.quantity entryPrice (some stopLossPrice)).violation =
        some "RISK_PER_TRADE" ↔
      state.totalValue * cfg.riskPerTradePct / 100 < |entryPrice - stopLossPrice| ∧
        entryPrice ≤ min (state.totalValue * cfg.maxPositionPct / 100) (cfg.maxPositionSizeKrw : Decimal)) := by
  obtain ⟨sizing, hcalc, hquantity⟩ := h.calculate_quantity takeProfitPrice
  refine ⟨sizing, _, _, hcalc, fun q => checkPositionSizing_maxQuantity q h.differ,
    fun q => checkMaxPosition_maxQuantity q h.unheld h.entry h.pctLimit_nonneg h.hardCap_nonneg, hquantity,
    ?_, ?_⟩
  · rw [← h.le_caps_iff, hquantity]
    exact min_le_right _ _
  · have hone := h.le_caps_iff 1
    rw [checkMaxPosition_ok_iff, existingValue_eq_zero h.unheld, zero_add, Int.cast_one, one_mul] at hone
    have hover := Rounding.trunc_div_lt_iff h.budget_nonneg h.risk_pos 1
    rw [Int.cast_one, one_mul] at hover
    rw [checkPositionSizing_violation_iff _ h.differ, ← Rounding.trunc_div_lt_iff h.budget_nonneg h.risk_pos,
      hquantity, ← hover, ← hone]
    have hrisk := Rounding.trunc_nonneg (div_nonneg h.budget_nonneg h.risk_pos.le)
    -- the reported quantity lies below the sized one only where the sizer insists on its one share
    omega

/-- Ten million and the limits of the settings: a stop 300000 away costs more than the 200000 a trade may
risk, and the one share at 500000 is still sized. -/
theorem calculate_agrees_oneShare : Fresh {} AlgoRiskManager.tenMillion "A" 500000 200000 ∧
    ∃ sizing, calculate {} "A" 500000 200000 none AlgoRiskManager.tenMillion.totalValue = .ok sizing ∧
      (checkPositionSizing {} AlgoRiskManager.tenMillion sizing.quantity 500000 (some 200000)).violation =
        some "RISK_PER_TRADE" := by
  have hfresh : Fresh {} AlgoRiskManager.tenMillion "A" 500000 200000 := by
    constructor <;> decide
  obtain ⟨sizing, -, -, hcalc, -, -, -, -, hrisk⟩ := calculate_agrees hfresh none
  exact ⟨hfresh, sizing, hcalc, hrisk.2 (by norm_num [AlgoRiskManager.tenMillion])⟩

end PositionSizer

end TradingAgent
