/-
The cost tracker: the budget of the language models, which all accounts share. The costs of the month come from
the database; at the whole budget escalations are switched off.
-/
import TradingAgent.Strategy.Exit

namespace TradingAgent

structure BudgetStatus where
  currentMonthCostUsd : Decimal
  budgetUsd : Decimal
  remainingUsd : Decimal
  usagePercent : Decimal
  warningTriggered : Bool
  budgetExceeded : Bool
  escalationDisabled : Bool

/-- The costs of the month as the database sums them up, or its error, and the settings of the budget. -/
structure CostTracker where
  currentCost : Except Exn Decimal
  monthlyBudgetUsd : Decimal
  budgetWarningPct : Decimal

namespace CostTracker

/-- The share of the budget that is used, in percent; none of a budget of zero. -/
def usagePct (budget currentCost : Decimal) : Decimal := if budget > 0 then currentCost / budget * 100 else 0

def getBudgetStatus (cost : CostTracker) : Except Exn BudgetStatus := do
  let currentCost ← cost.currentCost
  let usage := usagePct cost.monthlyBudgetUsd currentCost
  pure {
    currentMonthCostUsd := currentCost
    budgetUsd := cost.monthlyBudgetUsd
    remainingUsd := max (cost.monthlyBudgetUsd - currentCost) 0
    usagePercent := usage
    warningTriggered := usage ≥ cost.budgetWarningPct
    budgetExceeded := usage ≥ 100
    escalationDisabled := usage ≥ 100 }

/-- Escalations are switched off exactly where the costs of the month use up a budget. -/
theorem escalationDisabled_iff {cost : CostTracker} {status : BudgetStatus} (h : cost.getBudgetStatus = .ok status) :
    status.escalationDisabled = true ↔ 0 < status.budgetUsd ∧ status.budgetUsd ≤ status.currentMonthCostUsd := by
  unfold getBudgetStatus at h
  cases hcost : cost.currentCost with
  | error e =>
    rw [hcost] at h
    cases h
  | ok currentCost =>
    rw [hcost] at h
    cases h
    dsimp only
    rw [decide_eq_true_iff]
    unfold usagePct
    split
    · rename_i hpos
      rw [ge_iff_le, ← div_le_iff₀ (by norm_num), le_div_iff₀ hpos]
      norm_num [hpos]
    · rename_i hnot
      norm_num [hnot]

end CostTracker

end TradingAgent
