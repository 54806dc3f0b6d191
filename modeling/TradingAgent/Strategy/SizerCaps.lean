/-
The caps of the position sizer on what is already held. The sizer truncates the cap and the existing value
to whole shares before it subtracts them, so the room it sees can be one share larger than the room there
is. The risk manager subtracts the values first.
-/
import TradingAgent.Strategy.Exit

namespace TradingAgent

/-- A call of the sizer with valid arguments and limits that are not negative. -/
structure SizingRequest where
  cfg : Settings
  symbol : String
  entryPrice : Decimal
  stopLossPrice : Decimal
  takeProfitPrice : Option Decimal := none
  totalPortfolioValue : Decimal
  existingPositionValue : Decimal := 0
  entry_pos : 0 < entryPrice
  stop_pos : 0 < stopLossPrice
  differ : entryPrice ≠ stopLossPrice
  total_pos : 0 < totalPortfolioValue
  existing_nonneg : 0 ≤ existingPositionValue
  riskPct_nonneg : 0 ≤ cfg.riskPerTradePct
  positionPct_nonneg : 0 ≤ cfg.maxPositionPct
  positionKrw_nonneg : 0 ≤ cfg.maxPositionSizeKrw

namespace SizingRequest

variable (r : SizingRequest)

/-- The answer of the sizer. -/
def calculate : Except Exn PositionSizing :=
  PositionSizer.calculate r.cfg r.symbol r.entryPrice r.stopLossPrice r.takeProfitPrice
    r.totalPortfolioValue r.existingPositionValue

/-- What may be lost on the trade. -/
def riskBudget : Decimal := r.totalPortfolioValue * r.cfg.riskPerTradePct / 100

def riskPerShare : Decimal := |r.entryPrice - r.stopLossPrice|

/-- The largest value the position may have: the smaller of the two caps. -/
def positionCap : Decimal :=
  min (r.totalPortfolioValue * r.cfg.maxPositionPct / 100) (r.cfg.maxPositionSizeKrw : Decimal)

/-- The quantity by risk, one share at least. -/
def riskQuantity : ℤ := max 1 (Rounding.trunc (r.riskBudget / r.riskPerShare))

/-! ## The promise -/

/-- A quantity within the caps and, beyond one share, within the risk budget. -/
structure Allowed (q : ℤ) : Prop where
  pct : r.existingPositionValue + q * r.entryPrice ≤ r.totalPortfolioValue * r.cfg.maxPositionPct / 100
  krw : r.existingPositionValue + q * r.entryPrice ≤ r.cfg.maxPositionSizeKrw
  risk : q = 1 ∨ q * r.riskPerShare ≤ r.riskBudget

/-- A positive answer of the sizer is the largest allowed quantity. -/
def WithinCaps : Prop :=
  ∀ sizing, r.calculate = .ok sizing → 0 < sizing.quantity →
    r.Allowed sizing.quantity ∧ ∀ q, sizing.quantity < q → ¬ r.Allowed q

/-! ## The answer -/

theorem riskPerShare_pos : 0 < r.riskPerShare := abs_pos.2 (sub_ne_zero.2 r.differ)

theorem riskBudget_nonneg : 0 ≤ r.riskBudget :=
  div_nonneg (mul_nonneg r.total_pos.le r.riskPct_nonneg) (by norm_num)

theorem positionCap_nonneg : 0 ≤ r.positionCap :=
  le_min (div_nonneg (mul_nonneg r.total_pos.le r.positionPct_nonneg) (by norm_num))
    (Int.cast_nonneg r.positionKrw_nonneg)

/-- The room the sizer sees, in shares. -/
def seenRoom : ℤ :=
  Rounding.trunc (r.positionCap / r.entryPrice) - Rounding.trunc (r.existingPositionValue / r.entryPrice)

/-- The smaller cap in whole shares is the smaller of the two caps in whole shares. -/
theorem trunc_positionCap :
    Rounding.trunc (r.positionCap / r.entryPrice) =
      min (Rounding.trunc (r.totalPortfolioValue * r.cfg.maxPositionPct / 100 / r.entryPrice))
        (Rounding.trunc ((r.cfg.maxPositionSizeKrw : Decimal) / r.entryPrice)) := by
  unfold positionCap
  rw [← Rounding.trunc_mono.map_min, min_div_div_right r.entry_pos.le]

/-- The sizer answers with the quantity by risk, cut down to the room it sees. -/
theorem calculate_quantity :
    ∃ sizing, r.calculate = .ok sizing ∧ sizing.quantity = max 0 (min r.riskQuantity r.seenRoom) := by
  unfold calculate PositionSizer.calculate seenRoom riskQuantity riskBudget riskPerShare
  rw [if_neg r.entry_pos.not_ge, if_neg r.stop_pos.not_ge, if_neg r.differ, if_neg r.total_pos.not_ge,
    r.trunc_positionCap]
  cases r.takeProfitPrice with
  | none =>
    refine ⟨_, rfl, ?_⟩
    dsimp only
    omega
  | some target =>
    have hrisk : |r.entryPrice - r.stopLossPrice| ≠ 0 := r.riskPerShare_pos.ne'
    simp only [ExitPriceCalculator.riskRewardRatio, hrisk, if_false]
    refine ⟨_, rfl, ?_⟩
    dsimp only
    omega

/-! ## When the promise is kept -/

/-- The share that truncating one by one adds to the room: none where the remainder of the existing value is
at most that of the cap. -/
def excess : ℤ :=
  if Int.fract (r.existingPositionValue / r.entryPrice) ≤ Int.fract (r.positionCap / r.entryPrice) then 0 else 1

theorem excess_eq_zero_iff : r.excess = 0 ↔
    Int.fract (r.existingPositionValue / r.entryPrice) ≤ Int.fract (r.positionCap / r.entryPrice) := by
  unfold excess
  split
  · rename_i hle
    exact iff_of_true rfl hle
  · rename_i hgt
    exact iff_of_false one_ne_zero hgt

theorem excess_le_one : 0 ≤ r.excess ∧ r.excess ≤ 1 := by
  unfold excess
  split <;> decide

/-- The caps have room for a quantity exactly if it fits the room the sizer sees without the excess. -/
theorem fits_iff (q : ℤ) :
    r.existingPositionValue + q * r.entryPrice ≤ r.positionCap ↔ q + r.excess ≤ r.seenRoom :=
  Rounding.add_mul_le_iff r.positionCap_nonneg r.existing_nonneg r.entry_pos q

/-- The allowed quantities in whole shares. -/
theorem allowed_iff {q : ℤ} (hq : 0 < q) : r.Allowed q ↔ q + r.excess ≤ r.seenRoom ∧ q ≤ r.riskQuantity := by
  have hrisk : (q = 1 ∨ q * r.riskPerShare ≤ r.riskBudget) ↔ q ≤ r.riskQuantity := by
    unfold riskQuantity
    rw [← Rounding.le_trunc_div_iff r.riskBudget_nonneg r.riskPerShare_pos]
    omega
  rw [← fits_iff, positionCap, le_min_iff, ← hrisk]
  exact ⟨fun h => ⟨⟨h.pct, h.krw⟩, h.risk⟩, fun h => ⟨h.1.1, h.1.2, h.2⟩⟩

/-- The promise is kept exactly if the existing value fills the cap in whole shares, or leaves a remainder
that is not larger than the one of the cap, or the caps have room for the quantity by risk. -/
theorem withinCaps_iff :
    r.WithinCaps ↔
      Rounding.trunc (r.positionCap / r.entryPrice) ≤ Rounding.trunc (r.existingPositionValue / r.entryPrice) ∨
      Int.fract (r.existingPositionValue / r.entryPrice) ≤ Int.fract (r.positionCap / r.entryPrice) ∨
      r.existingPositionValue + r.riskQuantity * r.entryPrice ≤ r.positionCap := by
  obtain ⟨sizing, hcalc, hquantity⟩ := r.calculate_quantity
  have hkept : r.WithinCaps ↔ (0 < sizing.quantity →
      r.Allowed sizing.quantity ∧ ∀ q, sizing.quantity < q → ¬ r.Allowed q) := by
    constructor
    · exact fun h => h sizing hcalc
    · rintro h _ hcalc'
      cases hcalc.symm.trans hcalc'
      exact h
  have hexcess := r.excess_le_one
  have hrisk : 1 ≤ r.riskQuantity := le_max_left _ _
  have hroom : Rounding.trunc (r.positionCap / r.entryPrice) ≤
      Rounding.trunc (r.existingPositionValue / r.entryPrice) ↔ r.seenRoom ≤ 0 := by
    unfold seenRoom
    omega
  rw [hkept, hroom, ← excess_eq_zero_iff, fits_iff]
  constructor
  · intro h
    by_contra hfail
    rw [not_or, not_or] at hfail
    have hpos : 0 < sizing.quantity := by omega
    -- the answer fills the room with its excess, so it is one share beyond the caps
    have hallowed := (r.allowed_iff hpos).1 (h hpos).1
    omega
  · intro h hpos
    refine ⟨(r.allowed_iff hpos).2 (by omega), fun q hq hallowed => ?_⟩
    have hlarger := (r.allowed_iff (hpos.trans hq)).1 hallowed
    omega

/-- Half a million is held of a share at 300000, under caps of one million: the caps have room for one more
share and the sizer answers two. -/
def halfMillionHeld : SizingRequest where
  cfg := {}
  symbol := "A"
  entryPrice := 300000
  stopLossPrice := 270000
  totalPortfolioValue := 10000000
  existingPositionValue := 500000
  entry_pos := by decide
  stop_pos := by decide
  differ := by decide
  total_pos := by decide
  existing_nonneg := by decide
  riskPct_nonneg := by decide
  positionPct_nonneg := by decide
  positionKrw_nonneg := by decide

theorem not_withinCaps_halfMillionHeld : ¬ halfMillionHeld.WithinCaps := by
  intro h
  obtain ⟨sizing, hcalc, hquantity⟩ := halfMillionHeld.calculate_quantity
  have htwo : sizing.quantity = 2 := hquantity.trans (by decide +kernel)
  have hkrw := (h sizing hcalc (by rw [htwo]; decide)).1.krw
  rw [htwo] at hkrw
  exact absurd hkrw (by decide +kernel)

end SizingRequest

end TradingAgent
