/-
Replay of recorded model decisions: the decisions of a period are loaded once from the decision log
and looked up by day (Korean time) and symbol; a confident BUY or SELL turns into a signal.
-/
import TradingAgent.Strategy.Exit
import Mathlib.Data.List.Sort

namespace TradingAgent

/-- A row of the decision log; `createdAt` in seconds. -/
structure DecisionLog where
  decisionId : ℕ
  stage : String
  symbol : Option String
  llmModel : Option String := none
  decision : String
  confidence : Option Decimal
  reasoning : String := ""
  createdAt : ℤ
  deriving DecidableEq

/-- What the replay keeps of a row. -/
structure LLMReplayDecision where
  decisionId : ℕ
  symbol : String
  stage : String
  decision : String
  confidence : Decimal
  reasoning : String
  createdAt : ℤ
  deriving DecidableEq

namespace LLMReplayProvider

/-- The decisions loaded, by day and symbol. -/
abbrev Cache := Dict (ℤ × String) (List LLMReplayDecision)

def minConfidence : Decimal := 1 / 2

def defaultStageFilter : List String := ["trade_decision", "stock_analysis"]

def actionableDecisions : List String :=
  [DecisionAction.buy.value, DecisionAction.sell.value, DecisionAction.hold.value]

/-- The day of a time in Korea, nine hours ahead. -/
def kstDate (t : ℤ) : ℤ := (t + 9 * 3600) / 86400

/-- Midnight in Korea at the start of a day. -/
def kstMidnight (day : ℤ) : ℤ := day * 86400 - 9 * 3600

/-- The rows a replay selects, by creation time. -/
def select (rows : List DecisionLog) (startDate endDate : ℤ) (symbols stageFilter : List String)
    (llmModelFilter : Option String) : List DecisionLog :=
  (rows.filter (fun r =>
    kstMidnight startDate ≤ r.createdAt ∧ r.createdAt < kstMidnight endDate + 86400 ∧
    r.symbol.any (· ∈ symbols) ∧ r.confidence.isSome ∧ r.stage ∈ stageFilter ∧
    r.decision ∈ actionableDecisions ∧ (llmModelFilter.isSome → r.llmModel = llmModelFilter))).insertionSort
    (fun a b => a.createdAt ≤ b.createdAt)

/-- Load the decisions of a period into the cache, in the order of the query. -/
def load (rows : List DecisionLog) (startDate endDate : ℤ) (symbols : List String)
    (llmModelFilter : Option String) (stageFilter : List String := defaultStageFilter) : Cache :=
  (select rows startDate endDate symbols stageFilter llmModelFilter).foldl (fun cache r =>
    match r.symbol, r.confidence with
    | some symbol, some confidence =>
      let decision : LLMReplayDecision :=
        { decisionId := r.decisionId, symbol, stage := r.stage, decision := r.decision, confidence
          reasoning := r.reasoning, createdAt := r.createdAt }
      let key := (kstDate r.createdAt, symbol)
      cache.set key ((cache.get? key).getD [] ++ [decision])
    | _, _ => cache) Dict.empty

def getDecisions (cache : Cache) (targetDate : ℤ) (symbol : String) : List LLMReplayDecision :=
  (cache.get? (targetDate, symbol)).getD []

def decisionToSignal (decision : String) : Option SignalAction :=
  if decision = DecisionAction.buy.value then some .buy
  else if decision = DecisionAction.sell.value then some .sell
  else none

/-- The signal of a decision; none for a HOLD or a decision below the minimum confidence. -/
def toSignal (d : LLMReplayDecision) : Option Signal :=
  if d.confidence < minConfidence then none
  else match decisionToSignal d.decision with
    | none => none
    | some action =>
      some { symbol := d.symbol, action, confidence := d.confidence
             reasoning := .replay ("LLM replay [" ++ d.stage ++ "]: " ++
               String.ofList (d.reasoning.toList.take 200)) }

/-- The most confident decision, the first of equals. -/
def best : List LLMReplayDecision → Option LLMReplayDecision
  | [] => none
  | d :: ds => some (ds.foldl (fun b x => if x.confidence > b.confidence then x else b) d)

end LLMReplayProvider

end TradingAgent
