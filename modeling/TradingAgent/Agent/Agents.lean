/-
The agents of the analysis pipeline: each collects data, asks its model for structured output, and leaves a
row with its decision in the decision log. The agents differ in their schema, their stage and in how they
spell a decision.
-/
import TradingAgent.Backtest.LlmReplay
import TradingAgent.Llm.Router

namespace TradingAgent

open Wp

/-- The writer of the decision log: whether an insert fails, the next id and the time of the database. -/
structure DecisionRecorder where
  insertFault : DecisionLog → Option Exn := fun _ => none
  decisionId : ℕ := 0
  now : ℤ := 0
  str : Exn → String := fun _ => ""

/-- Insert a row. The confidence column has four decimals. -/
def DecisionRecorder.record (recorder : DecisionRecorder) (stage decision reasoning : String)
    (symbol : Option String) (confidence : Option Decimal) (llmModel : Option String) :
    Except Exn DecisionLog :=
  let row : DecisionLog :=
    { decisionId := recorder.decisionId, stage, symbol, llmModel, decision
      confidence := confidence.map quantize4, reasoning, createdAt := recorder.now }
  match recorder.insertFault row with
  | some exc => .error (.databaseError ("Decision record insert failed: " ++ recorder.str exc))
  | none => .ok row

/-- An agent: its type and stage, the schema of its answers, and its steps over data of type `δ`. Failing tool
calls leave their data empty. -/
structure BaseAgent (δ α : Type) where
  agentType : AgentType
  decisionStage : DecisionStage
  outputSchema : OutputSchema α
  prepareData : δ → δ
  systemPrompt : String
  buildUserPrompt : δ → String
  postProcess : α → δ → α := fun result _ => result
  extractDecision : α → String
  reasoning : α → String

namespace BaseAgent

variable {δ α : Type} (agent : BaseAgent δ α) (router : LLMRouter) (recorder : DecisionRecorder)

def buildMessages (data : δ) : List LLMMessage :=
  [⟨.system, agent.systemPrompt⟩, ⟨.user, agent.buildUserPrompt data⟩]

/-- Append the investment philosophy to the first system message. -/
def injectInvestmentPrompt (investmentPrompt : String) : List LLMMessage → List LLMMessage
  | [] => []
  | msg :: msgs =>
    if msg.role = .system then
      { msg with content := msg.content ++ ("\n\n## 투자 철학 (이 계좌의 운용 방침)\n" ++ investmentPrompt) } :: msgs
    else msg :: injectInvestmentPrompt investmentPrompt msgs

/-- Run the agent: its answer, and the row that records it. -/
def analyze (data : δ) (symbol investmentPrompt : Option String) : Except Exn (α × DecisionLog) := do
  let prepared := agent.prepareData data
  let messages := agent.buildMessages prepared
  let messages := match investmentPrompt with
    | none => messages
    | some text => if text = "" then messages else injectInvestmentPrompt text messages
  let (parsed, routing) ← router.routeStructured agent.agentType.value agent.outputSchema messages
  let result := agent.postProcess parsed prepared
  let row ← recorder.record agent.decisionStage.value (agent.extractDecision result) (agent.reasoning result)
    symbol (agent.outputSchema.confidence result) (some routing.response.model)
  return (result, row)

variable {agent router recorder}

/-- The row of an analysis. -/
theorem analyze_row {data : δ} {symbol investmentPrompt : Option String} {result : α} {row : DecisionLog}
    (h : agent.analyze router recorder data symbol investmentPrompt = .ok (result, row)) :
    row.stage = agent.decisionStage.value ∧ row.symbol = symbol ∧
      row.decision = agent.extractDecision result ∧
      row.confidence = (agent.outputSchema.confidence result).map quantize4 ∧
      row.createdAt = recorder.now := by
  unfold analyze at h
  obtain ⟨⟨parsed, routing⟩, -, h⟩ := bind_eq_ok.1 h
  obtain ⟨row', hrow, h⟩ := bind_eq_ok.1 h
  cases h
  unfold DecisionRecorder.record at hrow
  dsimp only at hrow
  split at hrow
  · cases hrow
  · cases hrow
    exact ⟨rfl, rfl, rfl, rfl, rfl⟩

end BaseAgent

namespace Trader

/-- The decision of the trader in the log: the action, with the symbol of the answer if it has one. -/
def extractDecision (result : TradeDecision) : String :=
  if result.symbol ≠ "" then result.action.value ++ ":" ++ result.symbol else result.action.value

/-- The trader, over the validation of its answers and how they are written out, its data and its prompts. -/
def agent {δ : Type} (validate : String → Except Exn TradeDecision) (dump : TradeDecision → String)
    (prepareData : δ → δ) (systemPrompt : String) (buildUserPrompt : δ → String) : BaseAgent δ TradeDecision where
  agentType := .trader
  decisionStage := .tradeDecision
  outputSchema := { validate, dump, confidence := fun result => some result.confidence }
  prepareData
  systemPrompt
  buildUserPrompt
  extractDecision
  reasoning := fun result => result.reasoning

end Trader

end TradingAgent
