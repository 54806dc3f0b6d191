/-
The two ways through the router with their effects: a chat request and a request for structured output. Both ask the
first model, record what it used, and ask a second one where the answer is not confident enough and the budget
allows it. What the providers answer is given call by call; calls and usage entries are recorded.
-/
import TradingAgent.Llm.Router
import TradingAgent.Llm.CostTracker
import TradingAgent.Lib.Related
import TradingAgent.Lib.Dict

namespace TradingAgent

open Wp

/-! ## Answers -/

/-- A call of a provider, as a chat or for structured output. -/
structure ProviderCall where
  model : String
  messages : List LLMMessage
  temperature : Decimal
  tools : List String := []
  maxTokens : Option ℕ := none

/-- What structured output returns: the parsed answer and what it used. -/
structure StructuredAnswer (α : Type) where
  parsed : α
  tokensIn : ℤ
  tokensOut : ℤ
  costUsd : Decimal

/-- What the providers answer to the calls, by their number. -/
structure ModelAnswers (α : Type) where
  chat : ℕ → ProviderCall → Except Exn LLMResponse
  structuredOutput : ℕ → ProviderCall → Except Exn (StructuredAnswer α)
  dumpJson : α → String

/-- A usage entry for the database. -/
structure UsageEntry where
  provider : LLMProviderType
  model : String
  agentType : String
  tokensIn : ℤ
  tokensOut : ℤ
  costUsd : Decimal
  isEscalation : Bool := false

/-- What a confidence is read as; a text that is no number cannot be compared, like a NaN. -/
inductive Confidence
  | finite (value : Decimal)
  | infinity (negative : Bool)
  | nan

/-- The order of decimals. -/
def Confidence.lt : Confidence → Confidence → Except Exn Bool
  | .nan, _ => .error .conversionError
  | _, .nan => .error .conversionError
  | .finite a, .finite b => .ok (a < b)
  | .finite _, .infinity negative => .ok (!negative)
  | .infinity true, .infinity true => .ok false
  | .infinity true, _ => .ok true
  | .infinity false, _ => .ok false

theorem Confidence.not_lt_of_lt {a b : Confidence} (h : a.lt b = .ok true) : b.lt a ≠ .ok true := by
  intro h'
  rcases a with a | a | _ <;> rcases b with b | b | _
  · have hab : a < b := by simpa [lt] using h
    have hba : b < a := by simpa [lt] using h'
    exact lt_asymm hab hba
  · cases b with
    | true => cases h
    | false => cases h'
  · cases h
  · cases a with
    | true => cases h'
    | false => cases h
  · cases a with
    | true =>
      cases b with
      | true => cases h
      | false => cases h'
    | false => cases b <;> cases h
  all_goals cases h

/-- The providers there are, by their model strings, with their model ids; the calls made and the usage recorded. -/
structure RouterState where
  providers : Dict String String := Dict.empty
  calls : List ProviderCall := []
  usage : List UsageEntry := []
  parses : ∀ model modelId, providers.get? model = some modelId →
    ∃ provider, parseModelString model = .ok (provider, modelId) := by simp

/-- Keep a new provider. -/
def RouterState.addProvider (s : RouterState) (model modelId : String)
    (h : ∃ provider, parseModelString model = .ok (provider, modelId)) : RouterState where
  providers := s.providers.set model modelId
  calls := s.calls
  usage := s.usage
  parses := by
    intro other otherId hget
    rw [Dict.get?_set] at hget
    split at hget
    · rename_i heq
      cases hget
      rw [heq]
      exact h
    · exact s.parses other otherId hget

namespace LLMRouter

abbrev RouterM := EStateM Exn RouterState

variable {α : Type} (R : LLMRouter) (A : ModelAnswers α) (cost : List UsageEntry → CostTracker)

/-! ## Effects -/

def liftExcept {β : Type} (x : Except Exn β) : RouterM β :=
  match x with
  | .ok a => pure a
  | .error e => throw e

/-- Create and initialise the provider of a model string; its model id. -/
def createProvider (model : String) : RouterM String :=
  match h : parseModelString model with
  | .error e => throw e
  | .ok (provider, modelId) => do
    liftExcept (R.initializeProvider model)
    modify fun s => s.addProvider model modelId ⟨provider, h⟩
    pure modelId

/-- The provider of a model string, created if it is not there. -/
def providerOf (model : String) : RouterM String := do
  match (← get).providers.get? model with
  | some modelId => pure modelId
  | none => R.createProvider model

theorem createProvider_of_ok {model modelId : String} {provider : LLMProviderType}
    (h : parseModelString model = .ok (provider, modelId)) :
    R.createProvider model = (do
      liftExcept (R.initializeProvider model)
      modify fun s => s.addProvider model modelId ⟨provider, h⟩
      pure modelId) := by
  unfold createProvider
  split
  · rename_i e herr
    rw [h] at herr
    cases herr
  · rename_i hok
    have heq := h.symm.trans hok
    cases heq
    rfl

theorem createProvider_of_error {model : String} {e : Exn} (h : parseModelString model = .error e) :
    R.createProvider model = throw e := by
  unfold createProvider
  split
  · rename_i herr
    have heq := h.symm.trans herr
    cases heq
    rfl
  · rename_i hok
    rw [h] at hok
    cases hok

/-- Make a call and get the answer of its number. -/
def call {β : Type} (answer : ℕ → ProviderCall → Except Exn β) (request : ProviderCall) : RouterM β := do
  let number := (← get).calls.length
  modify fun s => { s with calls := s.calls ++ [request] }
  liftExcept (answer number request)

/-- Record a usage; a database failure is only logged. -/
def recordUsage (entry : UsageEntry) : RouterM PUnit :=
  modify fun s => { s with usage := s.usage ++ [{ entry with
    agentType := if entry.agentType = "" then "__system__" else entry.agentType }] }

/-- The budget, with the usage recorded so far. -/
def getBudget : RouterM BudgetStatus := do liftExcept (cost (← get).usage).getBudgetStatus

variable (agentType : String) (messages : List LLMMessage) (temperature : Decimal)

/-! ## Chat requests -/

/-- The second model of a chat request; the more confident answer counts. -/
def routeEscalation (tools : List String) (maxTokens : Option ℕ) (extractConfidence : LLMResponse → Option Confidence)
    (config : AgentModelConfig) (response : LLMResponse) (confidence : Confidence) (escalationModel : String) :
    RouterM RoutingResult := do
  let modelId ← R.providerOf escalationModel
  let escResponse ← call A.chat { model := escalationModel, messages, temperature, tools, maxTokens }
  let (provider, _) ← liftExcept (parseModelString escalationModel)
  recordUsage { provider, model := modelId, agentType, tokensIn := escResponse.tokensIn
                tokensOut := escResponse.tokensOut, costUsd := escResponse.costUsd, isEscalation := true }
  match extractConfidence escResponse with
  | none => pure { response, escalated := true, primaryResponse := some response, configUsed := config }
  | some escConfidence =>
    if ← liftExcept (confidence.lt escConfidence) then
      pure { response := escResponse, escalated := true, primaryResponse := some response, configUsed := config }
    else pure { response, escalated := true, primaryResponse := some response, configUsed := config }

/-- Whether the first answer is enough: a second model is asked in the escalation mode, if the confidence is below
the threshold and the budget allows it. -/
def checkEscalation (tools : List String) (maxTokens : Option ℕ)
    (extractConfidence : Option (LLMResponse → Option Confidence)) (config : AgentModelConfig)
    (response : LLMResponse) : RouterM RoutingResult :=
  match config.escalationModel, config.confidenceThreshold, extractConfidence with
  | some escalationModel, some threshold, some extractConfidence =>
    if config.routingMode = .escalation ∧ escalationModel ≠ "" then
      match extractConfidence response with
      | none => pure { response, configUsed := config }
      | some confidence => do
        if ← liftExcept (confidence.lt (.finite threshold)) then
          let budget ← getBudget cost
          if budget.escalationDisabled then pure { response, configUsed := config }
          else
            R.routeEscalation A agentType messages temperature tools maxTokens extractConfidence config response
              confidence escalationModel
        else pure { response, configUsed := config }
    else pure { response, configUsed := config }
  | _, _, _ => pure { response, configUsed := config }

/-- Route a chat request. -/
def route (tools : List String := []) (maxTokens : Option ℕ := none)
    (extractConfidence : Option (LLMResponse → Option Confidence) := none) : RouterM RoutingResult := do
  let config ← liftExcept (R.getAgentConfig agentType)
  if config.isActive = false then throw (.providerError ("Agent '" ++ agentType ++ "' is inactive"))
  else
    let modelId ← R.providerOf config.primaryModel
    let response ← call A.chat { model := config.primaryModel, messages, temperature, tools, maxTokens }
    let (provider, _) ← liftExcept (parseModelString config.primaryModel)
    recordUsage { provider, model := modelId, agentType, tokensIn := response.tokensIn
                  tokensOut := response.tokensOut, costUsd := response.costUsd }
    R.checkEscalation A cost agentType messages temperature tools maxTokens extractConfidence config response

/-! ## Structured output -/

variable (confidenceField : α → Option Confidence)

/-- The response that stands for a structured answer. -/
def syntheticResponse (modelId : String) (provider : LLMProviderType) (answer : StructuredAnswer α) : LLMResponse where
  content := A.dumpJson answer.parsed
  model := modelId
  provider := provider
  tokensIn := answer.tokensIn
  tokensOut := answer.tokensOut
  costUsd := answer.costUsd

/-- The second model of a request for structured output; the more confident answer counts. -/
def routeStructuredEscalation (config : AgentModelConfig) (parsed : α) (response : LLMResponse)
    (confidence : Confidence) (escalationModel : String) : RouterM (α × RoutingResult) := do
  let modelId ← R.providerOf escalationModel
  let escAnswer ← call A.structuredOutput { model := escalationModel, messages, temperature }
  let (provider, _) ← liftExcept (parseModelString escalationModel)
  let escResponse := syntheticResponse A modelId provider escAnswer
  recordUsage { provider, model := modelId, agentType, tokensIn := escAnswer.tokensIn
                tokensOut := escAnswer.tokensOut, costUsd := escAnswer.costUsd, isEscalation := true }
  match confidenceField escAnswer.parsed with
  | none => pure (parsed, { response, escalated := true, primaryResponse := some response, configUsed := config })
  | some escConfidence =>
    if ← liftExcept (confidence.lt escConfidence) then
      pure (escAnswer.parsed,
        { response := escResponse, escalated := true, primaryResponse := some response, configUsed := config })
    else pure (parsed, { response, escalated := true, primaryResponse := some response, configUsed := config })

/-- Whether the first structured answer is enough. -/
def checkStructuredEscalation (config : AgentModelConfig) (parsed : α) (response : LLMResponse) :
    RouterM (α × RoutingResult) :=
  match config.escalationModel, config.confidenceThreshold with
  | some escalationModel, some threshold =>
    if config.routingMode = .escalation ∧ escalationModel ≠ "" then
      match confidenceField parsed with
      | none => pure (parsed, { response, configUsed := config })
      | some confidence => do
        if ← liftExcept (confidence.lt (.finite threshold)) then
          let budget ← getBudget cost
          if budget.escalationDisabled then pure (parsed, { response, configUsed := config })
          else
            R.routeStructuredEscalation A agentType messages temperature confidenceField config parsed response
              confidence escalationModel
        else pure (parsed, { response, configUsed := config })
    else pure (parsed, { response, configUsed := config })
  | _, _ => pure (parsed, { response, configUsed := config })

/-- Route a request for structured output. -/
def routeStructuredCalls : RouterM (α × RoutingResult) := do
  let config ← liftExcept (R.getAgentConfig agentType)
  if config.isActive = false then throw (.providerError ("Agent '" ++ agentType ++ "' is inactive"))
  else
    let modelId ← R.providerOf config.primaryModel
    let answer ← call A.structuredOutput { model := config.primaryModel, messages, temperature }
    let (provider, _) ← liftExcept (parseModelString config.primaryModel)
    let response := syntheticResponse A modelId provider answer
    recordUsage { provider, model := modelId, agentType, tokensIn := answer.tokensIn
                  tokensOut := answer.tokensOut, costUsd := answer.costUsd }
    R.checkStructuredEscalation A cost agentType messages temperature confidenceField config answer.parsed response

end LLMRouter

end TradingAgent
