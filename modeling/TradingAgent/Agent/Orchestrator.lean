/-
The analysis pipeline: the market once, then every requested symbol through the stock analyst, the risk
manager and the trader, and the collected result. The symbol in an answer is whatever the model wrote. The
decisions are bound to analysed and approved symbols exactly if the answers of every occurrence that gets to
the trader name its symbol, and no symbol gets there twice.
-/
import TradingAgent.Agent.Agents

namespace TradingAgent

/-- What the calls of the agents return during a run, by the place of the symbol in the request, and what the
recorder returns at its end. -/
structure Agents where
  marketAnalyst : Except Exn MarketCondition
  stockAnalyst : ℕ → String → MarketCondition → Except Exn StockAnalysis
  riskManager : ℕ → String → StockAnalysis → MarketCondition → Except Exn RiskAssessment
  trader : ℕ → String → RiskAssessment → StockAnalysis → MarketCondition → Except Exn TradeDecision
  sessionCosts : Except Exn (List (Option Decimal)) := .ok []
  str : Exn → String := fun _ => ""

/-- Result of the pipeline of one symbol. -/
structure SymbolResult where
  symbol : String
  stockAnalysis : Option StockAnalysis := none
  riskAssessment : Option RiskAssessment := none
  tradeDecision : Option TradeDecision := none
  error : Option String := none

namespace PipelineOrchestrator

variable (agents : Agents)

/-- The pipeline of one symbol. A HOLD and a rejection end it without an error. -/
def runSymbolPipeline (marketCondition : MarketCondition) (i : ℕ) (symbol : String) : SymbolResult :=
  match agents.stockAnalyst i symbol marketCondition with
  | .error exc => { symbol, error := some ("Stock analysis failed: " ++ agents.str exc) }
  | .ok sa =>
    if sa.action = .hold then { symbol, stockAnalysis := some sa }
    else match agents.riskManager i symbol sa marketCondition with
      | .error exc =>
        { symbol, stockAnalysis := some sa, error := some ("Risk assessment failed: " ++ agents.str exc) }
      | .ok ra =>
        if ra.approved = false then { symbol, stockAnalysis := some sa, riskAssessment := some ra }
        else match agents.trader i symbol ra sa marketCondition with
          | .error exc =>
            { symbol, stockAnalysis := some sa, riskAssessment := some ra
              error := some ("Trade decision failed: " ++ agents.str exc) }
          | .ok td =>
            { symbol, stockAnalysis := some sa, riskAssessment := some ra, tradeDecision := some td }

/-- Add what a task returned to the result; `.error` is an exception that no pipeline catches. -/
def collect (result : PipelineResult) : Except String SymbolResult → PipelineResult
  | .error exc => { result with errors := result.errors ++ [exc] }
  | .ok sr =>
    match sr.error with
    | some error =>
      { result with
        symbolsSkipped := result.symbolsSkipped ++ [sr.symbol]
        errors := result.errors ++ [sr.symbol ++ ": " ++ error] }
    | none =>
      { result with
        symbolsAnalyzed := result.symbolsAnalyzed ++ [sr.symbol]
        stockAnalyses := result.stockAnalyses ++ sr.stockAnalysis.toList
        riskAssessments := result.riskAssessments ++ sr.riskAssessment.toList
        tradeDecisions := result.tradeDecisions ++ sr.tradeDecision.toList }

/-- The results of all occurrences, in the order of the request. -/
def symbolResults (marketCondition : MarketCondition) (symbols : List String) : List SymbolResult :=
  symbols.mapIdx (runSymbolPipeline agents marketCondition)

/-- Run the pipeline. A failed market analysis ends it, a failed cost query changes nothing. -/
def execute (symbols : List String) (accountId : String := "default") : PipelineResult :=
  match agents.marketAnalyst with
  | .error exc =>
    { symbolsRequested := symbols, accountId, success := false
      errors := ["Market analysis failed: " ++ agents.str exc] }
  | .ok marketCondition =>
    let result : PipelineResult :=
      { symbolsRequested := symbols, accountId, marketCondition := some marketCondition }
    let result := ((symbolResults agents marketCondition symbols).map Except.ok).foldl collect result
    match agents.sessionCosts with
    | .error _ => result
    | .ok decisions =>
      { result with
        totalLlmCostUsd := (decisions.map (fun cost => cost.getD 0)).sum
        totalLlmCalls := decisions.length }

/-! ## What is collected -/

/-- Collecting results keeps, in order, the decisions of the symbols without an error, and files every symbol. -/
theorem foldl_collect (l : List SymbolResult) : ∀ r : PipelineResult,
    ((l.map Except.ok).foldl collect r).tradeDecisions =
        r.tradeDecisions ++ l.flatMap (fun sr => if sr.error = none then sr.tradeDecision.toList else []) ∧
      ((l.map Except.ok).foldl collect r).symbolsAnalyzed =
        r.symbolsAnalyzed ++ (l.filter (fun sr => sr.error = none)).map (·.symbol) ∧
      ((l.map Except.ok).foldl collect r).symbolsSkipped =
        r.symbolsSkipped ++ (l.filter (fun sr => ¬ sr.error = none)).map (·.symbol) := by
  induction l with
  | nil => simp
  | cons sr l ih =>
    intro r
    rw [List.map_cons, List.foldl_cons]
    obtain ⟨hdecisions, hanalyzed, hskipped⟩ := ih (collect r (.ok sr))
    rw [hdecisions, hanalyzed, hskipped]
    cases herror : sr.error with
    | none => simp [collect, herror]
    | some error => simp [collect, herror]

theorem runSymbolPipeline_symbol (marketCondition : MarketCondition) (i : ℕ) (symbol : String) :
    (runSymbolPipeline agents marketCondition i symbol).symbol = symbol := by
  unfold runSymbolPipeline
  cases agents.stockAnalyst i symbol marketCondition with
  | error exc => rfl
  | ok sa =>
    dsimp only
    split
    · rfl
    · cases agents.riskManager i symbol sa marketCondition with
      | error exc => rfl
      | ok ra =>
        dsimp only
        split
        · rfl
        · cases agents.trader i symbol ra sa marketCondition with
          | error exc => rfl
          | ok td => rfl

/-- A decision comes from an analysis other than HOLD and an approved assessment of the same pipeline. -/
theorem runSymbolPipeline_tradeDecision {marketCondition : MarketCondition} {i : ℕ} {symbol : String}
    {td : TradeDecision} :
    (runSymbolPipeline agents marketCondition i symbol).tradeDecision = some td ↔
      ∃ sa ra, agents.stockAnalyst i symbol marketCondition = .ok sa ∧ sa.action ≠ .hold ∧
        agents.riskManager i symbol sa marketCondition = .ok ra ∧ ra.approved = true ∧
        agents.trader i symbol ra sa marketCondition = .ok td ∧
        runSymbolPipeline agents marketCondition i symbol =
          { symbol, stockAnalysis := some sa, riskAssessment := some ra, tradeDecision := some td } := by
  constructor
  · intro h
    unfold runSymbolPipeline at h ⊢
    cases hsa : agents.stockAnalyst i symbol marketCondition with
    | error exc => simp [hsa] at h
    | ok sa =>
      simp only [hsa] at h ⊢
      by_cases haction : sa.action = .hold
      · simp [haction] at h
      · simp only [haction, if_false] at h ⊢
        cases hra : agents.riskManager i symbol sa marketCondition with
        | error exc => simp [hra] at h
        | ok ra =>
          simp only [hra] at h
          by_cases happroved : ra.approved = false
          · simp [happroved] at h
          · simp only [happroved] at h
            cases htd : agents.trader i symbol ra sa marketCondition with
            | error exc => simp [htd] at h
            | ok td' =>
              simp only [htd] at h
              cases h
              refine ⟨sa, ra, rfl, haction, hra, by simpa using happroved, htd, ?_⟩
              simp only [happroved, htd]
              rfl
  · rintro ⟨sa, ra, -, -, -, -, -, h⟩
    rw [h]

/-! ## The binding of decisions to symbols -/

/-- What a run owes to the requested symbols: every decision is about one that the same run has analysed, not
with HOLD, and approved; there is at most one for each; and every occurrence is filed exactly once. -/
structure SymbolBinding (symbols : List String) : Prop where
  decided : ∀ td ∈ (execute agents symbols).tradeDecisions, td.symbol ∈ symbols ∧
    ∃ marketCondition sr sa ra, agents.marketAnalyst = .ok marketCondition ∧
      sr ∈ symbolResults agents marketCondition symbols ∧ sr.symbol = td.symbol ∧
      sr.stockAnalysis = some sa ∧ sa.symbol = td.symbol ∧ sa.action ≠ .hold ∧
      sr.riskAssessment = some ra ∧ ra.symbol = td.symbol ∧ ra.approved = true
  atMostOne : ∀ s ∈ symbols, ((execute agents symbols).tradeDecisions.filter (fun td => td.symbol = s)).length ≤ 1
  filed : (∃ marketCondition, agents.marketAnalyst = .ok marketCondition) →
    ((execute agents symbols).symbolsAnalyzed ++ (execute agents symbols).symbolsSkipped).Perm symbols

/-- The contents of the answers, by occurrence. -/
structure Answers where
  market : MarketCondition
  stock : ℕ → StockAnalysis
  risk : ℕ → RiskAssessment
  trade : ℕ → TradeDecision

/-- Which calls fail, and the exception they raise. -/
structure Failures where
  market : Option Exn := none
  stock : ℕ → Option Exn := fun _ => none
  risk : ℕ → Option Exn := fun _ => none
  trade : ℕ → Option Exn := fun _ => none

def outcome {α : Type} (failure : Option Exn) (answer : α) : Except Exn α :=
  match failure with
  | some exc => .error exc
  | none => .ok answer

/-- The agents that give these answers, except for the calls that fail. -/
def agentsOf (answers : Answers) (failures : Failures) : Agents where
  marketAnalyst := outcome failures.market answers.market
  stockAnalyst i _ _ := outcome (failures.stock i) (answers.stock i)
  riskManager i _ _ _ := outcome (failures.risk i) (answers.risk i)
  trader i _ _ _ _ := outcome (failures.trade i) (answers.trade i)

/-- The answers of an occurrence let it get to the trader. -/
def Passes (answers : Answers) (i : ℕ) : Prop :=
  (answers.stock i).action ≠ .hold ∧ (answers.risk i).approved = true

/-- The answers of every occurrence that gets to the trader name its symbol, and no other occurrence of that
symbol gets there. -/
def Bound (symbols : List String) (answers : Answers) : Prop :=
  ∀ i s, symbols[i]? = some s → Passes answers i →
    (answers.stock i).symbol = s ∧ (answers.risk i).symbol = s ∧ (answers.trade i).symbol = s ∧
      ∀ j, j ≠ i → symbols[j]? = some s → ¬ Passes answers j

theorem outcome_eq_ok {α : Type} {failure : Option Exn} {answer a : α} :
    outcome failure answer = .ok a ↔ failure = none ∧ answer = a := by
  unfold outcome
  cases failure with
  | none => simp
  | some exc => simp

/-- The decisions of a run are those of its occurrences, in order. -/
theorem tradeDecisions_execute (symbols : List String) {marketCondition : MarketCondition}
    (hmarket : agents.marketAnalyst = .ok marketCondition) (accountId : String := "default") :
    (execute agents symbols accountId).tradeDecisions =
      (symbolResults agents marketCondition symbols).flatMap (fun sr => sr.tradeDecision.toList) := by
  have hcollect := (foldl_collect (symbolResults agents marketCondition symbols)
    { symbolsRequested := symbols, accountId, marketCondition := some marketCondition }).1
  have hexecute : (execute agents symbols accountId).tradeDecisions =
      (symbolResults agents marketCondition symbols).flatMap
        (fun sr => if sr.error = none then sr.tradeDecision.toList else []) := by
    unfold execute
    rw [hmarket]
    dsimp only
    split
    · exact hcollect.trans (List.nil_append _)
    · exact hcollect.trans (List.nil_append _)
  rw [hexecute]
  refine List.flatMap_congr fun sr hsr => ?_
  obtain ⟨i, hi, rfl⟩ := List.mem_mapIdx.1 hsr
  cases htd : (runSymbolPipeline agents marketCondition i symbols[i]).tradeDecision with
  | none => simp
  | some td =>
    obtain ⟨sa, ra, -, -, -, -, -, heq⟩ := (runSymbolPipeline_tradeDecision agents).1 htd
    rw [heq]
    rfl

/-- Every occurrence is filed exactly once. -/
theorem filed_execute (symbols : List String) {marketCondition : MarketCondition}
    (hmarket : agents.marketAnalyst = .ok marketCondition) :
    ((execute agents symbols).symbolsAnalyzed ++ (execute agents symbols).symbolsSkipped).Perm symbols := by
  have hcollect := (foldl_collect (symbolResults agents marketCondition symbols)
    { symbolsRequested := symbols, marketCondition := some marketCondition }).2
  have hsymbols : (symbolResults agents marketCondition symbols).map (·.symbol) = symbols := by
    unfold symbolResults
    rw [List.mapIdx_eq_zipIdx_map, List.map_map]
    refine Eq.trans (List.map_congr_left fun e _ => ?_) (List.zipIdx_map_fst 0 symbols)
    exact runSymbolPipeline_symbol agents marketCondition e.2 e.1
  have hperm := (List.filter_append_perm (fun sr : SymbolResult => decide (sr.error = none))
    (symbolResults agents marketCondition symbols)).map (·.symbol)
  rw [hsymbols, List.map_append] at hperm
  have hexecute : (execute agents symbols).symbolsAnalyzed =
        ((symbolResults agents marketCondition symbols).filter (fun sr => sr.error = none)).map (·.symbol) ∧
      (execute agents symbols).symbolsSkipped =
        ((symbolResults agents marketCondition symbols).filter (fun sr => ¬ sr.error = none)).map (·.symbol) := by
    unfold execute
    rw [hmarket]
    dsimp only
    split
    · exact ⟨hcollect.1.trans (List.nil_append _), hcollect.2.trans (List.nil_append _)⟩
    · exact ⟨hcollect.1.trans (List.nil_append _), hcollect.2.trans (List.nil_append _)⟩
  rw [hexecute.1, hexecute.2]
  simpa using hperm

/-! ## When decisions are bound -/

theorem length_filter_le_one_iff {α : Type} (p : α → Prop) [DecidablePred p] : ∀ l : List α,
    (l.filter (fun a => p a)).length ≤ 1 ↔ l.Pairwise (fun a b => ¬ (p a ∧ p b))
  | [] => by simp
  | a :: l => by
    rw [List.pairwise_cons, ← length_filter_le_one_iff p l, List.filter_cons]
    by_cases ha : p a
    · have hlen : (l.filter (fun b => decide (p b))).length + 1 ≤ 1 ↔ ∀ b ∈ l, ¬ decide (p b) = true := by
        rw [← List.filter_eq_nil_iff, ← List.length_eq_zero_iff]
        omega
      rw [if_pos (decide_eq_true ha), List.length_cons, hlen]
      constructor
      · intro hnone
        have hnil : l.filter (fun b => decide (p b)) = [] := List.filter_eq_nil_iff.2 hnone
        exact ⟨fun b hb hboth => hnone b hb (decide_eq_true hboth.2), by rw [hnil]; exact Nat.zero_le 1⟩
      · rintro ⟨hnone, -⟩ b hb hpb
        exact hnone b hb ⟨ha, of_decide_eq_true hpb⟩
    · rw [if_neg (by rw [decide_eq_true_eq]; exact ha)]
      exact ⟨fun h => ⟨fun _ _ hboth => ha hboth.1, h⟩, fun h => h.2⟩

section Answers

variable {symbols : List String} {answers : Answers} {failures : Failures}

/-- The result of an occurrence that gets to a decision. -/
theorem runSymbolPipeline_agentsOf {marketCondition : MarketCondition} {i : ℕ} {s : String} {td : TradeDecision} :
    (runSymbolPipeline (agentsOf answers failures) marketCondition i s).tradeDecision = some td ↔
      Passes answers i ∧ failures.stock i = none ∧ failures.risk i = none ∧ failures.trade i = none ∧
        answers.trade i = td := by
  rw [runSymbolPipeline_tradeDecision]
  constructor
  · rintro ⟨sa, ra, hsa, haction, hra, happroved, htd, -⟩
    obtain ⟨hstock, rfl⟩ := outcome_eq_ok.1 hsa
    obtain ⟨hrisk, rfl⟩ := outcome_eq_ok.1 hra
    obtain ⟨htrade, rfl⟩ := outcome_eq_ok.1 htd
    exact ⟨⟨haction, happroved⟩, hstock, hrisk, htrade, rfl⟩
  · rintro ⟨⟨haction, happroved⟩, hstock, hrisk, htrade, rfl⟩
    refine ⟨answers.stock i, answers.risk i, outcome_eq_ok.2 ⟨hstock, rfl⟩, haction,
      outcome_eq_ok.2 ⟨hrisk, rfl⟩, happroved, outcome_eq_ok.2 ⟨htrade, rfl⟩, ?_⟩
    simp [runSymbolPipeline, agentsOf, outcome, hstock, hrisk, htrade, haction, happroved]

theorem runSymbolPipeline_of_tradeDecision {marketCondition : MarketCondition} {i : ℕ} {s : String}
    {td : TradeDecision}
    (h : (runSymbolPipeline (agentsOf answers failures) marketCondition i s).tradeDecision = some td) :
    runSymbolPipeline (agentsOf answers failures) marketCondition i s =
      { symbol := s, stockAnalysis := some (answers.stock i), riskAssessment := some (answers.risk i)
        tradeDecision := some td } := by
  obtain ⟨sa, ra, hsa, -, hra, -, -, heq⟩ := (runSymbolPipeline_tradeDecision _).1 h
  obtain ⟨-, rfl⟩ := outcome_eq_ok.1 hsa
  obtain ⟨-, rfl⟩ := outcome_eq_ok.1 hra
  exact heq

theorem mem_symbolResults_iff {marketCondition : MarketCondition} {sr : SymbolResult} :
    sr ∈ symbolResults agents marketCondition symbols ↔
      ∃ i s, symbols[i]? = some s ∧ runSymbolPipeline agents marketCondition i s = sr := by
  unfold symbolResults
  rw [List.mem_mapIdx]
  constructor
  · rintro ⟨i, hi, h⟩
    exact ⟨i, symbols[i], List.getElem?_eq_getElem hi, h⟩
  · rintro ⟨i, s, hs, h⟩
    obtain ⟨hi, rfl⟩ := List.getElem?_eq_some_iff.1 hs
    exact ⟨i, hi, h⟩

/-- What a market analysis that succeeds returns. -/
theorem marketAnalyst_agentsOf {marketCondition : MarketCondition} :
    (agentsOf answers failures).marketAnalyst = .ok marketCondition ↔
      failures.market = none ∧ answers.market = marketCondition := outcome_eq_ok

/-- Each symbol has at most one decision exactly if no two occurrences decide about it. -/
theorem length_decisions_le_one_iff (hmarket : failures.market = none) (s : String) :
    ((execute (agentsOf answers failures) symbols).tradeDecisions.filter (fun td => td.symbol = s)).length ≤ 1 ↔
      ∀ i j (hi : i < symbols.length) (hj : j < symbols.length), i < j → ∀ td td',
        (runSymbolPipeline (agentsOf answers failures) answers.market i symbols[i]).tradeDecision = some td →
        (runSymbolPipeline (agentsOf answers failures) answers.market j symbols[j]).tradeDecision = some td' →
        ¬ (td.symbol = s ∧ td'.symbol = s) := by
  rw [tradeDecisions_execute _ symbols (marketAnalyst_agentsOf.2 ⟨hmarket, rfl⟩),
    length_filter_le_one_iff (fun td : TradeDecision => td.symbol = s), List.pairwise_flatMap,
    List.pairwise_iff_getElem]
  unfold symbolResults
  simp only [List.length_mapIdx, List.getElem_mapIdx, Option.mem_toList]
  constructor
  · rintro ⟨-, h⟩ i j hi hj hij td td' htd htd'
    exact h i j hi hj hij td htd td' htd'
  · intro h
    refine ⟨fun sr _ => ?_, fun i j hi hj hij td htd td' htd' => h i j hi hj hij td td' htd htd'⟩
    cases sr.tradeDecision with
    | none => exact List.Pairwise.nil
    | some td => exact List.pairwise_singleton _ _

theorem Bound.symbolBinding (h : Bound symbols answers) (failures : Failures) :
    SymbolBinding (agentsOf answers failures) symbols := by
  refine ⟨fun td htd => ?_, fun s _ => ?_, ?_⟩
  · cases hmarket : failures.market with
    | some exc =>
      unfold execute agentsOf outcome at htd
      simp [hmarket] at htd
    | none =>
      have hok : (agentsOf answers failures).marketAnalyst = .ok answers.market :=
        marketAnalyst_agentsOf.2 ⟨hmarket, rfl⟩
      rw [tradeDecisions_execute _ symbols hok, List.mem_flatMap] at htd
      obtain ⟨sr, hsr, htd⟩ := htd
      obtain ⟨i, s, hs, rfl⟩ := (mem_symbolResults_iff _).1 hsr
      have htd' := Option.mem_toList.1 htd
      obtain ⟨hpass, -, -, -, rfl⟩ := runSymbolPipeline_agentsOf.1 htd'
      obtain ⟨hstock, hrisk, htrade, -⟩ := h i s hs hpass
      have heq := runSymbolPipeline_of_tradeDecision htd'
      refine ⟨htrade ▸ List.mem_of_getElem? hs, answers.market, _, answers.stock i, answers.risk i, hok, hsr, ?_⟩
      rw [heq, htrade]
      exact ⟨rfl, rfl, hstock, hpass.1, rfl, hrisk, hpass.2⟩
  · cases hmarket : failures.market with
    | some exc =>
      unfold execute agentsOf outcome
      simp [hmarket]
    | none =>
      rw [length_decisions_le_one_iff hmarket]
      rintro i j hi hj hij td td' htd htd' ⟨hs, hs'⟩
      obtain ⟨hpass, -, -, -, rfl⟩ := runSymbolPipeline_agentsOf.1 htd
      obtain ⟨hpass', -, -, -, rfl⟩ := runSymbolPipeline_agentsOf.1 htd'
      have hi' : symbols[i]? = some symbols[i] := List.getElem?_eq_getElem hi
      have hj' : symbols[j]? = some symbols[j] := List.getElem?_eq_getElem hj
      have hsame : symbols[j] = symbols[i] := by
        rw [← (h j _ hj' hpass').2.2.1, ← (h i _ hi' hpass).2.2.1, hs, hs']
      exact (h i _ hi' hpass).2.2.2 j hij.ne' (hj'.trans (congrArg some hsame)) hpass'
  · rintro ⟨marketCondition, hok⟩
    exact filed_execute _ symbols hok

/-- All stock analyses but one fail. -/
def onlyAt (i : ℕ) : Failures where
  stock j := if j = i then none else some (.external "timeout")

theorem stockAnalysis_onlyAt {i j : ℕ} {s : String} {sa : StockAnalysis}
    (h : (runSymbolPipeline (agentsOf answers (onlyAt i)) answers.market j s).stockAnalysis = some sa) :
    j = i := by
  by_contra hne
  unfold runSymbolPipeline agentsOf outcome onlyAt at h
  simp [hne] at h

/-- Whatever fails, the decisions are bound to their symbols exactly if the answers are. -/
theorem symbolBinding_iff_bound (symbols : List String) (answers : Answers) :
    (∀ failures, SymbolBinding (agentsOf answers failures) symbols) ↔ Bound symbols answers := by
  constructor
  · intro hbinding
    have hnames : ∀ i s, symbols[i]? = some s → Passes answers i →
        (answers.stock i).symbol = s ∧ (answers.risk i).symbol = s ∧ (answers.trade i).symbol = s := by
      intro i s hs hpass
      have hdecision : (runSymbolPipeline (agentsOf answers (onlyAt i)) answers.market i s).tradeDecision =
          some (answers.trade i) :=
        runSymbolPipeline_agentsOf.2 ⟨hpass, by simp [onlyAt], rfl, rfl, rfl⟩
      have hok : (agentsOf answers (onlyAt i)).marketAnalyst = .ok answers.market := rfl
      have hmem : answers.trade i ∈ (execute (agentsOf answers (onlyAt i)) symbols).tradeDecisions := by
        rw [tradeDecisions_execute _ symbols hok, List.mem_flatMap]
        exact ⟨_, (mem_symbolResults_iff _).2 ⟨i, s, hs, rfl⟩, Option.mem_toList.2 hdecision⟩
      obtain ⟨-, _, sr, sa, ra, hok', hsr, hsymbol, hsa, hsasym, -, hra, hrasym, -⟩ :=
        (hbinding (onlyAt i)).decided _ hmem
      cases hok'
      obtain ⟨j, s', hs', rfl⟩ := (mem_symbolResults_iff _).1 hsr
      -- no other analysis succeeds, so the result is the one of this occurrence
      obtain rfl := stockAnalysis_onlyAt hsa
      rw [hs] at hs'
      cases hs'
      rw [runSymbolPipeline_symbol] at hsymbol
      rw [runSymbolPipeline_of_tradeDecision hdecision] at hsa hra
      cases hsa
      cases hra
      exact ⟨hsasym.trans hsymbol.symm, hrasym.trans hsymbol.symm, hsymbol.symm⟩
    intro i s hs hpass
    obtain ⟨hstock, hrisk, htrade⟩ := hnames i s hs hpass
    refine ⟨hstock, hrisk, htrade, fun j hne hs' hpass' => ?_⟩
    obtain ⟨hi, hi'⟩ := List.getElem?_eq_some_iff.1 hs
    obtain ⟨hj, hj'⟩ := List.getElem?_eq_some_iff.1 hs'
    have hsucceeds : ({} : Failures).market = none := rfl
    have hone := (length_decisions_le_one_iff hsucceeds s).1
      ((hbinding {}).atMostOne s (List.mem_of_getElem? hs))
    have hdecision : ∀ k t, Passes answers k →
        (runSymbolPipeline (agentsOf answers {}) answers.market k t).tradeDecision = some (answers.trade k) :=
      fun k t hk => runSymbolPipeline_agentsOf.2 ⟨hk, rfl, rfl, rfl, rfl⟩
    have htrade' := (hnames j s hs' hpass').2.2
    rcases Nat.lt_or_gt_of_ne hne with hlt | hlt
    · exact hone j i hj hi hlt _ _ (hdecision j _ hpass') (hdecision i _ hpass) ⟨htrade', htrade⟩
    · exact hone i j hi hj hlt _ _ (hdecision i _ hpass) (hdecision j _ hpass') ⟨htrade, htrade'⟩
  · exact fun h failures => h.symbolBinding failures

/-- Answers to a request for 005930: the analysis and the approval are about it, the decision is about 000660. -/
def strayAnswers : Answers where
  market := { condition := "bullish", confidence := 8 / 10 }
  stock _ := { symbol := "005930", action := .buy, confidence := 8 / 10 }
  risk _ := { symbol := "005930", approved := true, confidence := 8 / 10 }
  trade _ := { symbol := "000660", action := .buy, confidence := 8 / 10, quantity := 10, price := some 180000 }

/-- The decision goes into the result, although its symbol was neither requested nor analysed. -/
theorem strayAnswers_unbound : ¬ SymbolBinding (agentsOf strayAnswers {}) ["005930"] := by
  intro h
  have hdecisions : (execute (agentsOf strayAnswers {}) ["005930"]).tradeDecisions = [strayAnswers.trade 0] := rfl
  have hmem := (h.decided (strayAnswers.trade 0) (hdecisions ▸ List.mem_singleton_self _)).1
  exact absurd hmem (by decide)

end Answers

end PipelineOrchestrator

end TradingAgent
