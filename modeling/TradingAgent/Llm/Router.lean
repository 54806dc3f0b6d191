/-
The LLM router: the model an agent is configured for (cache, then database, then defaults), its
structured answer, and a second model that is asked when the first one is not confident enough. What
the cache, the databases and the providers answer during one call is given.
-/
import TradingAgent.Strategy.Exit
import TradingAgent.Lib.Wp

namespace TradingAgent

open Wp

/-- A message to a language model. -/
structure LLMMessage where
  role : MessageRole
  content : String

/-- The model assignment of an agent. -/
structure AgentModelConfig where
  agentType : AgentType
  routingMode : RoutingMode
  primaryModel : String
  escalationModel : Option String := none
  confidenceThreshold : Option Decimal := none
  isActive : Bool := true
  updatedBy : String := "system"

/-- A completion as the provider returns it, after its retries. -/
structure Completion where
  text : String
  tokensIn : ℤ
  tokensOut : ℤ
  costUsd : Decimal

structure LLMResponse where
  content : String
  model : String
  provider : LLMProviderType
  tokensIn : ℤ
  tokensOut : ℤ
  costUsd : Decimal

structure RoutingResult where
  response : LLMResponse
  escalated : Bool := false
  primaryResponse : Option LLMResponse := none
  configUsed : AgentModelConfig

/-- A schema of structured output: how a text is validated and an answer written out, and the confidence field, if
it has one. -/
structure OutputSchema (α : Type) where
  validate : String → Except Exn α
  /-- `model_dump_json()` -/
  dump : α → String
  confidence : α → Option Decimal

/-- Read `provider/model-id`. -/
def parseModelString (modelString : String) : Except Exn (LLMProviderType × String) :=
  match modelString.toList.span (· ≠ '/') with
  | (_, []) => throw (.providerError ("Invalid model string: " ++ modelString))
  | (name, _ :: modelId) =>
    match LLMProviderType.ofValue? (String.ofList name) with
    | none => throw (.providerError ("Unknown provider: " ++ String.ofList name))
    | some provider => pure (provider, String.ofList modelId)

theorem parses_nil : ∀ model ∈ ([] : List String), ∃ p, parseModelString model = .ok p :=
  fun _ h => absurd h List.not_mem_nil

/-- The router and what its collaborators answer. A provider that is already there was created from a
model string that could be read. -/
structure LLMRouter where
  /-- the cached configuration of an agent; none without a cache -/
  cache : Option (String → Except Exn (Option AgentModelConfig)) := none
  /-- writing a configuration to the cache -/
  cacheWrite : String → Except Exn PUnit := fun _ => .ok ⟨⟩
  /-- the row of an agent in the database -/
  row : String → Except Exn (Option AgentModelConfig)
  /-- the YAML defaults -/
  defaults : String → Except Exn (Option AgentModelConfig)
  providers : List String := []
  initializeProvider : String → Except Exn PUnit := fun _ => .ok ⟨⟩
  complete : String → List LLMMessage → Except Exn Completion
  /-- the budget check before an escalation -/
  escalationDisabled : Except Exn Bool := .ok false
  str : Exn → String
  providers_parse : ∀ model ∈ providers, ∃ p, parseModelString model = .ok p := by simp

namespace LLMRouter

variable (R : LLMRouter) (agentType : String)

/-! ## Configuration -/

/-- Look into the cache; a cache error counts as a miss. -/
def cachedConfig : Except Exn (Option AgentModelConfig) :=
  match R.cache with
  | none => pure none
  | some cache =>
    match cache agentType with
    | .error (.cacheError _) => pure none
    | config => config

/-- Store a configuration in the cache, if there is one; a cache error is only logged. -/
def storeConfig : Except Exn PUnit :=
  if R.cache.isSome then
    match R.cacheWrite agentType with
    | .error (.cacheError _) => pure ⟨⟩
    | done => done
  else pure ⟨⟩

/-- The configuration of an agent. -/
def getAgentConfig : Except Exn AgentModelConfig := do
  match ← R.cachedConfig agentType with
  | some config => pure config
  | none =>
    match ← R.row agentType with
    | some config => do
      R.storeConfig agentType
      pure config
    | none =>
      match ← R.defaults agentType with
      | some config => pure config
      | none => throw (.providerError ("No config found for agent: " ++ agentType))

/-! ## Asking a model -/

/-- The provider of a model is there, or is created from the model string and initialised. -/
def getOrCreateProvider (model : String) : Except Exn PUnit :=
  if model ∈ R.providers then pure ⟨⟩
  else do
    let _ ← parseModelString model
    R.initializeProvider model

variable {α : Type} (schema : OutputSchema α) (messages : List LLMMessage)

/-- A structured answer of a model: its completion, validated. -/
def structuredOutput (model : String) : Except Exn (α × Completion) := do
  let completion ← R.complete model messages
  match schema.validate completion.text with
  | .ok parsed => pure (parsed, completion)
  | .error e => throw (.providerError ("Failed to parse structured output: " ++ R.str e))

/-- Ask a model, and keep what the answer cost. Recording the usage never fails. -/
def callModel (model : String) : Except Exn (α × LLMResponse) := do
  R.getOrCreateProvider model
  let (parsed, completion) ← R.structuredOutput schema messages model
  let (provider, modelId) ← parseModelString model
  pure (parsed, { content := schema.dump parsed, model := modelId, provider, tokensIn := completion.tokensIn
                  tokensOut := completion.tokensOut, costUsd := completion.costUsd })

/-- The model to escalate to, with the confidence to beat: the mode is escalation, there is a model
and a threshold, and the answer has a confidence below it. -/
def escalation (config : AgentModelConfig) (parsed : α) : Option (String × Decimal) :=
  match config.routingMode, config.escalationModel, config.confidenceThreshold, schema.confidence parsed with
  | .escalation, some model, some threshold, some confidence =>
    if model ≠ "" ∧ confidence < threshold then some (model, confidence) else none
  | _, _, _, _ => none

/-- Ask the second model too; its answer counts if it is more confident. -/
def escalate (config : AgentModelConfig) (parsed : α) (response : LLMResponse) (model : String)
    (confidence : Decimal) : Except Exn (α × RoutingResult) := do
  if ← R.escalationDisabled then pure (parsed, { response, configUsed := config })
  else do
    let (escParsed, escResponse) ← R.callModel schema messages model
    if (schema.confidence escParsed).any (fun c => decide (c > confidence)) then
      pure (escParsed, { response := escResponse, escalated := true, primaryResponse := some response
                         configUsed := config })
    else
      pure (parsed, { response, escalated := true, primaryResponse := some response, configUsed := config })

/-- Route a request for structured output. -/
def routeStructured : Except Exn (α × RoutingResult) := do
  let config ← R.getAgentConfig agentType
  if config.isActive = false then throw (.providerError ("Agent '" ++ agentType ++ "' is inactive"))
  else do
    let (parsed, response) ← R.callModel schema messages config.primaryModel
    match escalation schema config parsed with
    | some (model, confidence) => R.escalate schema messages config parsed response model confidence
    | none => pure (parsed, { response, configUsed := config })

/-! ## The answer of the first model -/

/-- What the model call of the first model returns. -/
def answer : Except Exn α := do
  let config ← R.getAgentConfig agentType
  if config.isActive = false then throw (.providerError ("Agent '" ++ agentType ++ "' is inactive"))
  else do
    R.getOrCreateProvider config.primaryModel
    let (parsed, _) ← R.structuredOutput schema messages config.primaryModel
    pure parsed

variable {R schema messages agentType}

/-- The string of a model whose provider could be had can be read. -/
theorem parseModelString_of_provider {model : String} (h : R.getOrCreateProvider model = .ok ⟨⟩) :
    ∃ p, parseModelString model = .ok p := by
  unfold getOrCreateProvider at h
  split at h
  · rename_i hmem
    exact R.providers_parse model hmem
  · obtain ⟨p, hp, _⟩ := bind_eq_ok.1 h
    exact ⟨p, hp⟩

theorem callModel_returns {model : String} {parsed : α} :
    (∃ response, R.callModel schema messages model = .ok (parsed, response)) ↔
      R.getOrCreateProvider model = .ok ⟨⟩ ∧
        ∃ completion, R.structuredOutput schema messages model = .ok (parsed, completion) := by
  unfold callModel
  constructor
  · rintro ⟨response, h⟩
    obtain ⟨_, hprovider, h⟩ := bind_eq_ok.1 h
    obtain ⟨⟨parsed', completion⟩, houtput, h⟩ := bind_eq_ok.1 h
    obtain ⟨p, _, h⟩ := bind_eq_ok.1 h
    cases h
    exact ⟨hprovider, completion, houtput⟩
  · rintro ⟨hprovider, completion, houtput⟩
    obtain ⟨p, hp⟩ := parseModelString_of_provider hprovider
    exact ⟨_, bind_eq_ok.2 ⟨_, hprovider, bind_eq_ok.2 ⟨_, houtput, bind_eq_ok.2 ⟨p, hp, rfl⟩⟩⟩⟩

/-- Without a confidence field the router returns exactly the answer of the first model. -/
theorem routeStructured_returns (hconf : ∀ a, schema.confidence a = none) {parsed : α} :
    (∃ routing, R.routeStructured agentType schema messages = .ok (parsed, routing)) ↔
      R.answer agentType schema messages = .ok parsed := by
  have hnone : ∀ config (a : α), escalation schema config a = none := by
    intro config a
    unfold escalation
    rw [hconf a]
    split <;> simp_all
  unfold routeStructured answer
  constructor
  · rintro ⟨routing, h⟩
    obtain ⟨config, hconfig, h⟩ := bind_eq_ok.1 h
    refine bind_eq_ok.2 ⟨config, hconfig, ?_⟩
    by_cases hactive : config.isActive = false
    · rw [if_pos hactive] at h; cases h
    · rw [if_neg hactive] at h ⊢
      obtain ⟨⟨parsed', response⟩, hcall, h⟩ := bind_eq_ok.1 h
      dsimp only at h
      rw [hnone] at h
      cases h
      obtain ⟨hprovider, completion, houtput⟩ := callModel_returns.1 ⟨response, hcall⟩
      exact bind_eq_ok.2 ⟨_, hprovider, bind_eq_ok.2 ⟨_, houtput, rfl⟩⟩
  · intro h
    obtain ⟨config, hconfig, h⟩ := bind_eq_ok.1 h
    by_cases hactive : config.isActive = false
    · rw [if_pos hactive] at h; cases h
    · rw [if_neg hactive] at h
      obtain ⟨_, hprovider, h⟩ := bind_eq_ok.1 h
      obtain ⟨⟨parsed', completion⟩, houtput, h⟩ := bind_eq_ok.1 h
      cases h
      obtain ⟨response, hcall⟩ := callModel_returns.2 ⟨hprovider, completion, houtput⟩
      refine ⟨{ response, configUsed := config }, bind_eq_ok.2 ⟨config, hconfig, ?_⟩⟩
      rw [if_neg hactive]
      refine bind_eq_ok.2 ⟨_, hcall, ?_⟩
      dsimp only
      rw [hnone]
      rfl

end LLMRouter

end TradingAgent
