/-
The fundamental analysis: the annual statements of a symbol, the latest year first, and the pairs of them
that growth is computed between. The scores themselves are left out.
-/
import TradingAgent.Data.Dart

namespace TradingAgent

namespace FundamentalAnalyzer

variable {T : Type} (S : Services T)

/-- The annual rows of a symbol. -/
def annualRowsOf (db : AnalysisDb) (symbol : String) : List FinancialStatement :=
  db.financialStatements.filter (fun row => row.symbol = symbol ∧ row.reportType = .annual)

/-- The annual statements of the latest years. -/
def fetchStatements (db : AnalysisDb) (symbol : String) (limit : ℕ := 3) : List FinancialStatementInfo :=
  (((S.rowOrder _ (annualRowsOf db symbol)).insertionSort
    (fun a b => b.fiscalYear ≤ a.fiscalYear)).take limit).map DartProvider.financialInfo

/-- `_calc_growth_rate` has a result. -/
def hasGrowthRate (current previous : Option Decimal) : Bool :=
  match current, previous with
  | some _, some previous => previous ≠ 0
  | _, _ => false

/-- The pairs of statements that `_score_growth` computes growth between. -/
def growthPairs : List FinancialStatementInfo → List (FinancialStatementInfo × FinancialStatementInfo)
  | latest :: prev :: rest =>
    (latest, prev) ::
      if hasGrowthRate latest.revenue prev.revenue ∨ hasGrowthRate latest.operatingIncome prev.operatingIncome then
        match rest with
        | oldest :: _ => [(latest, oldest)]
        | [] => []
      else []
  | _ => []

variable {S}

/-- Statements of different years come in descending order, as many as there may be. -/
theorem fetchStatements_pairwise {db : AnalysisDb} {symbol : String}
    (h : ((annualRowsOf db symbol).map (·.fiscalYear)).Nodup) (limit : ℕ) :
    (fetchStatements S db symbol limit).Pairwise (fun a b => b.fiscalYear < a.fiscalYear) := by
  let le : FinancialStatement → FinancialStatement → Prop := fun a b => b.fiscalYear ≤ a.fiscalYear
  have hperm : ((S.rowOrder _ (annualRowsOf db symbol)).insertionSort le).Perm (annualRowsOf db symbol) :=
    (List.perm_insertionSort le _).trans (S.rowOrder_perm _ _)
  have : IsTrans FinancialStatement le := ⟨fun a b c hab hbc => le_trans hbc hab⟩
  have : Std.Total le := ⟨fun a b => le_total b.fiscalYear a.fiscalYear⟩
  have hsorted := List.pairwise_insertionSort le (S.rowOrder _ (annualRowsOf db symbol))
  have hyears := (hperm.map (·.fiscalYear)).nodup_iff.2 h
  have hstrict := hsorted.and (List.pairwise_map.1 hyears)
  unfold fetchStatements
  rw [List.pairwise_map]
  refine (hstrict.sublist (List.take_sublist limit _)).imp ?_
  rintro a b ⟨hle, hne⟩
  exact lt_of_le_of_ne hle (Ne.symm hne)

/-- Growth is never computed between two statements of one year. -/
theorem growthPairs_years {statements : List FinancialStatementInfo}
    (h : statements.Pairwise (fun a b => b.fiscalYear < a.fiscalYear)) :
    ∀ p ∈ growthPairs statements, p.2.fiscalYear < p.1.fiscalYear := by
  intro p hp
  unfold growthPairs at hp
  split at hp
  · rename_i latest prev rest
    obtain ⟨hlatest, -⟩ := List.pairwise_cons.1 h
    rcases List.mem_cons.1 hp with rfl | hp
    · exact hlatest prev List.mem_cons_self
    · split at hp
      · split at hp
        · rename_i oldest _ _
          rw [List.mem_singleton] at hp
          subst hp
          exact hlatest oldest (List.mem_cons_of_mem _ List.mem_cons_self)
        · cases hp
      · cases hp
  · cases hp

end FundamentalAnalyzer

end TradingAgent
