/-
The router for structured output without its calls, and with them. Where the providers answer every call of a model
alike, and the budget does not hang on what the request itself uses, the calls give what the router gives that only
knows the answers.
-/
import TradingAgent.Llm.RoutingParity

namespace TradingAgent

open Wp

namespace LLMRouter

variable {α : Type} {R : LLMRouter} {A : ModelAnswers α} {cost : List UsageEntry → CostTracker}
  {schema : OutputSchema α} {confidenceField : α → Option Confidence} {agentType : String}
  {messages : List LLMMessage} {temperature : Decimal} {s : RouterState}

/-- The answer to a call, from a completion that was validated. -/
def structuredAnswer (p : α × Completion) : StructuredAnswer α where
  parsed := p.1
  tokensIn := p.2.tokensIn
  tokensOut := p.2.tokensOut
  costUsd := p.2.costUsd

/-- The calls are answered as the router without calls is. -/
structure AnswersAlike (R : LLMRouter) (A : ModelAnswers α) (cost : List UsageEntry → CostTracker)
    (schema : OutputSchema α) (confidenceField : α → Option Confidence) : Prop where
  structuredOutput : ∀ number request, A.structuredOutput number request =
    (R.structuredOutput schema request.messages request.model).map structuredAnswer
  dumpJson : A.dumpJson = schema.dump
  confidence : ∀ a, confidenceField a = (schema.confidence a).map .finite
  budget : ∀ usage, (cost usage).getBudgetStatus.map (·.escalationDisabled) = R.escalationDisabled

/-- The state has the providers that the router begins with, and the others as they are created. -/
structure Knows (R : LLMRouter) (s : RouterState) : Prop where
  present : ∀ model ∈ R.providers, s.providers.get? model ≠ none
  created : ∀ model modelId, s.providers.get? model = some modelId → R.getOrCreateProvider model = .ok ⟨⟩

theorem Knows.congr {s' : RouterState} (h : Knows R s) (hproviders : s'.providers = s.providers) : Knows R s' :=
  ⟨hproviders ▸ h.present, hproviders ▸ h.created⟩

theorem Knows.addProvider (h : Knows R s) {model modelId : String}
    (hparse : ∃ provider, parseModelString model = .ok (provider, modelId))
    (hcreated : R.getOrCreateProvider model = .ok ⟨⟩) : Knows R (s.addProvider model modelId hparse) where
  present other hmem := by
    show (s.providers.set model modelId).get? other ≠ none
    rw [Dict.get?_set]
    split
    · exact nofun
    · exact h.present other hmem
  created other otherId hget := by
    change (s.providers.set model modelId).get? other = some otherId at hget
    rw [Dict.get?_set] at hget
    split at hget
    · rename_i heq
      exact heq ▸ hcreated
    · exact h.created other otherId hget

/-- A provider is had, or is not, as without the state. -/
theorem wp_providerOf_knows (h : Knows R s) (model : String) :
    wp (R.providerOf model) (fun modelId s' => R.getOrCreateProvider model = .ok ⟨⟩ ∧
        (∃ provider, parseModelString model = .ok (provider, modelId)) ∧ Knows R s')
      (fun e _ => R.getOrCreateProvider model = .error e) s := by
  unfold providerOf
  rw [wp_bind, wp_get]
  cases hget : s.providers.get? model with
  | some modelId => exact ⟨h.created model modelId hget, s.parses model modelId hget, h⟩
  | none =>
    have hnew : model ∉ R.providers := fun hmem => h.present model hmem hget
    cases hparse : parseModelString model with
    | error e =>
      show wp (R.createProvider model) _ _ s
      rw [R.createProvider_of_error hparse]
      unfold getOrCreateProvider
      rw [if_neg hnew, hparse]
      rfl
    | ok parsed =>
      obtain ⟨provider, modelId⟩ := parsed
      have hcreate : R.getOrCreateProvider model = R.initializeProvider model := by
        unfold getOrCreateProvider
        rw [if_neg hnew, hparse]
        rfl
      show wp (R.createProvider model) _ _ s
      rw [R.createProvider_of_ok hparse, wp_bind]
      refine wp_liftExcept (fun _ hinit => ?_) fun e hinit => hcreate.trans hinit
      rw [wp_bind, wp_modify, wp_pure]
      have hcreated := hcreate.trans hinit
      exact ⟨hcreated, ⟨provider, rfl⟩, h.addProvider ⟨provider, hparse⟩ hcreated⟩

/-- A call of a model for structured output is answered as without the state. -/
theorem wp_call_knows (hA : AnswersAlike R A cost schema confidenceField) (h : Knows R s) (model : String) :
    wp (call A.structuredOutput { model, messages, temperature })
      (fun answer s' => (∃ completion, R.structuredOutput schema messages model = .ok (answer.parsed, completion) ∧
        answer = structuredAnswer (answer.parsed, completion)) ∧ Knows R s')
      (fun e _ => R.structuredOutput schema messages model = .error e) s := by
  unfold call
  rw [wp_bind, wp_get, wp_bind, wp_modify, hA.structuredOutput]
  dsimp only
  cases R.structuredOutput schema messages model with
  | error e => exact rfl
  | ok p => exact ⟨⟨p.2, rfl, rfl⟩, h.congr rfl⟩

/-- What asking a model gives, from its provider and its answer. -/
theorem callModel_eq (hA : AnswersAlike R A cost schema confidenceField) {model modelId : String}
    {provider : LLMProviderType} {answer : StructuredAnswer α} {completion : Completion}
    (hprovider : R.getOrCreateProvider model = .ok ⟨⟩) (hparse : parseModelString model = .ok (provider, modelId))
    (houtput : R.structuredOutput schema messages model = .ok (answer.parsed, completion))
    (hanswer : answer = structuredAnswer (answer.parsed, completion)) :
    R.callModel schema messages model = .ok (answer.parsed, syntheticResponse A modelId provider answer) := by
  refine bind_eq_ok.2 ⟨_, hprovider, bind_eq_ok.2 ⟨_, houtput, bind_eq_ok.2 ⟨_, hparse, ?_⟩⟩⟩
  unfold syntheticResponse
  rw [hA.dumpJson, hanswer]
  rfl

/-- A request gives what the router without its calls gives. -/
def GivesAsWithout (x : RouterM (α × RoutingResult)) (y : Except Exn (α × RoutingResult))
    (s : RouterState) : Prop :=
  wp x (fun r _ => y = .ok r) (fun e _ => y = .error e) s

/-- The calls of a model, and what follows them, give what asking the model and what follows it give. -/
theorem givesAsWithout_of_call (hA : AnswersAlike R A cost schema confidenceField) (h : Knows R s) (model : String)
    {k : String → StructuredAnswer α → LLMProviderType × String → RouterM (α × RoutingResult)}
    {k' : α × LLMResponse → Except Exn (α × RoutingResult)}
    (hk : ∀ modelId provider answer s', Knows R s' → GivesAsWithout (k modelId answer (provider, modelId))
      (k' (answer.parsed, syntheticResponse A modelId provider answer)) s') :
    GivesAsWithout (do
      let modelId ← R.providerOf model
      let answer ← call A.structuredOutput { model, messages, temperature }
      let read ← liftExcept (parseModelString model)
      k modelId answer read) (R.callModel schema messages model >>= k') s := by
  unfold GivesAsWithout
  rw [wp_bind]
  refine wp_mono (wp_providerOf_knows h model) ?_ fun e s' herror => ?_
  · rintro modelId s₁ ⟨hprovider, ⟨provider, hparse⟩, h₁⟩
    rw [wp_bind]
    refine wp_mono (wp_call_knows hA h₁ model) ?_ fun e s₂ herror => ?_
    · rintro answer s₂ ⟨⟨completion, houtput, hanswer⟩, h₂⟩
      rw [hparse, wp_bind, wp_liftExcept_ok, callModel_eq hA hprovider hparse houtput hanswer]
      exact hk modelId provider answer s₂ h₂
    · unfold callModel
      rw [hprovider, show R.structuredOutput schema messages model = .error e from herror]
      rfl
  · unfold callModel
    rw [show R.getOrCreateProvider model = .error e from herror]
    rfl

/-- The second model is asked as without the state. -/
theorem routeStructuredEscalation_gives (hA : AnswersAlike R A cost schema confidenceField) (h : Knows R s)
    (config : AgentModelConfig) (parsed : α) (response : LLMResponse) (model : String) (confidence : Decimal)
    (hbudget : R.escalationDisabled = .ok false) :
    GivesAsWithout
      (R.routeStructuredEscalation A agentType messages temperature confidenceField config parsed response
        (.finite confidence) model)
      (R.escalate schema messages config parsed response model confidence) s := by
  unfold routeStructuredEscalation escalate
  rw [hbudget]
  refine givesAsWithout_of_call hA h model fun modelId provider answer s' _ => ?_
  unfold GivesAsWithout recordUsage
  rw [wp_bind, wp_modify, hA.confidence]
  dsimp only
  cases schema.confidence answer.parsed with
  | none => exact rfl
  | some c =>
    show wp (liftExcept (.ok (decide (confidence < c))) >>= _) _ _ _
    rw [wp_bind, wp_liftExcept_ok, Option.any_some]
    by_cases hmore : confidence < c
    · rw [decide_eq_true hmore]
      exact rfl
    · rw [decide_eq_false hmore]
      exact rfl

/-- The budget is asked as without the state. -/
theorem escalate_gives (hA : AnswersAlike R A cost schema confidenceField) (h : Knows R s) (config : AgentModelConfig)
    (parsed : α) (response : LLMResponse) (model : String) (confidence : Decimal) :
    GivesAsWithout
      (do
        let budget ← getBudget cost
        if budget.escalationDisabled then pure (parsed, { response, configUsed := config })
        else
          R.routeStructuredEscalation A agentType messages temperature confidenceField config parsed response
            (.finite confidence) model)
      (R.escalate schema messages config parsed response model confidence) s := by
  have hbudget := hA.budget s.usage
  unfold GivesAsWithout getBudget
  rw [wp_bind, wp_bind, wp_get]
  cases hstatus : (cost s.usage).getBudgetStatus with
  | error e =>
    rw [hstatus] at hbudget
    unfold escalate
    rw [← hbudget]
    exact rfl
  | ok budget =>
    rw [wp_liftExcept_ok]
    rw [hstatus] at hbudget
    cases hdisabled : budget.escalationDisabled with
    | true =>
      simp only [Except.map, hdisabled] at hbudget
      unfold escalate
      rw [← hbudget]
      exact rfl
    | false =>
      simp only [Except.map, hdisabled] at hbudget
      exact routeStructuredEscalation_gives hA h config parsed response model confidence hbudget.symm

/-- The first answer is enough, or is not, as without the state. -/
theorem checkStructuredEscalation_gives (hA : AnswersAlike R A cost schema confidenceField) (h : Knows R s)
    (config : AgentModelConfig) (parsed : α) (response : LLMResponse) :
    GivesAsWithout
      (R.checkStructuredEscalation A cost agentType messages temperature confidenceField config parsed response)
      (match escalation schema config parsed with
        | some (model, confidence) => R.escalate schema messages config parsed response model confidence
        | none => pure (parsed, { response, configUsed := config })) s := by
  unfold checkStructuredEscalation escalation
  cases config.escalationModel with
  | none => cases config.routingMode <;> exact rfl
  | some model =>
    cases config.confidenceThreshold with
    | none => cases config.routingMode <;> exact rfl
    | some threshold =>
      cases config.routingMode with
      | fixed => exact rfl
      | escalation =>
        rw [hA.confidence]
        by_cases hempty : model = ""
        · subst hempty
          cases schema.confidence parsed <;> exact rfl
        · dsimp only
          rw [if_pos ⟨rfl, hempty⟩]
          cases schema.confidence parsed with
          | none => exact rfl
          | some confidence =>
            show wp (liftExcept (.ok (decide (confidence < threshold))) >>= _) _ _ _
            rw [wp_bind, wp_liftExcept_ok]
            dsimp only
            by_cases hlow : confidence < threshold
            · have hwhen : (if model ≠ "" ∧ confidence < threshold then some (model, confidence) else none) =
                  some (model, confidence) := if_pos ⟨hempty, hlow⟩
              rw [decide_eq_true hlow, hwhen]
              exact escalate_gives hA h config parsed response model confidence
            · have hwhen : (if model ≠ "" ∧ confidence < threshold then some (model, confidence) else none) =
                  none := if_neg fun hboth => hlow hboth.2
              rw [decide_eq_false hlow, hwhen]
              exact rfl

/-- A request for structured output gives with its calls what it gives without them. -/
theorem routeStructuredCalls_gives (hA : AnswersAlike R A cost schema confidenceField) (h : Knows R s) :
    GivesAsWithout (R.routeStructuredCalls A cost agentType messages temperature confidenceField)
      (R.routeStructured agentType schema messages) s := by
  unfold routeStructuredCalls routeStructured GivesAsWithout
  rw [wp_bind]
  cases R.getAgentConfig agentType with
  | error e => exact rfl
  | ok config =>
    rw [wp_liftExcept_ok]
    show GivesAsWithout (if config.isActive = false then _ else _) (if config.isActive = false then _ else _) s
    by_cases hactive : config.isActive = false
    · rw [if_pos hactive, if_pos hactive]
      exact rfl
    · rw [if_neg hactive, if_neg hactive]
      refine givesAsWithout_of_call hA h config.primaryModel fun modelId provider answer s' h' => ?_
      show wp (recordUsage _ >>= _) _ _ s'
      unfold recordUsage
      rw [wp_bind, wp_modify]
      refine checkStructuredEscalation_gives hA ?_ config answer.parsed (syntheticResponse A modelId provider answer)
      exact h'.congr rfl

end LLMRouter

end TradingAgent
